/-
Messages of a chat as the desktop client shows them: their tool calls and the
steps of their reasoning.
-/
import Mathlib.Data.List.Induction
import AiTeam.Unicode

namespace AiTeam.Chat

open Unicode (Text lit)

/-- Texts are equal when their `==` says so. -/
scoped instance lawfulText : LawfulBEq Text := inferInstance

/-- An own property of an object, which may be there and undefined. -/
inductive Field (α : Type) where
  | absent
  | undefined
  | defined (value : α)
deriving DecidableEq

inductive ToolKind where
  | memory
  | rag
  | todo
deriving DecidableEq

/-- Arguments that are a record, and others as the value of one. -/
inductive Input (J : Type) where
  | record (arguments : J)
  | value (arguments : J)
deriving DecidableEq

/-- `ToolCall`; `J` are the values of the wire. -/
structure ToolCall (J : Type) where
  id : Text
  name : Text
  toolKind : Field ToolKind := .absent
  fileName : Field Text := .absent
  input : Field (Input J) := .absent
  result : Field Text := .absent
  resultValue : Field J := .absent
  isError : Field Bool := .absent
deriving DecidableEq

inductive ThinkingStep (J : Type) where
  | reasoning (text : Text)
  | tool (call : ToolCall J)
deriving DecidableEq

variable {J : Type}

/-- The id of a step that is a tool call. -/
def ThinkingStep.toolId : ThinkingStep J → Option Text
  | .reasoning _ => none
  | .tool call => some call.id

def toolIds (steps : List (ThinkingStep J)) : List Text :=
  steps.filterMap ThinkingStep.toolId

/-! ### Paragraphs -/

/-- `[...].filter(Boolean).join('\n\n')` -/
def joined (texts : List Text) : Text :=
  (lit "\n\n").intercalate (texts.filter fun text => text != [])

theorem intercalate_snoc {sep : Text} {texts : List Text} (text : Text)
    (h : texts ≠ []) :
    sep.intercalate (texts ++ [text]) = sep.intercalate texts ++ sep ++ text := by
  induction texts with
  | nil => exact absurd rfl h
  | cons first rest ih =>
      cases rest with
      | nil => simp [List.intercalate]
      | cons second rest =>
          have hrest := ih (List.cons_ne_nil second rest)
          rw [List.cons_append, List.cons_append, List.intercalate_cons_cons,
            ← List.cons_append, hrest, List.intercalate_cons_cons]
          simp only [List.append_assoc]

theorem intercalate_ne_nil {sep : Text} {texts : List Text} (h : texts ≠ [])
    (hall : ∀ text ∈ texts, text ≠ []) : sep.intercalate texts ≠ [] := by
  induction texts using List.reverseRecOn with
  | nil => exact absurd rfl h
  | append_singleton texts text _ =>
      have htext : text ≠ [] :=
        hall text (List.mem_append_right _ (List.mem_singleton_self text))
      cases texts with
      | nil => rwa [List.nil_append, List.intercalate_singleton]
      | cons first rest =>
          rw [intercalate_snoc text (List.cons_ne_nil first rest)]
          exact List.append_ne_nil_of_right_ne_nil _ htext

theorem joined_pair (first second : Text) :
    joined [first, second] =
      if first = [] then second
      else if second = [] then first else first ++ lit "\n\n" ++ second := by
  by_cases hfirst : first = []
  · by_cases hsecond : second = [] <;> simp [joined, hfirst, hsecond]
  · by_cases hsecond : second = [] <;>
      simp [joined, hfirst, hsecond, List.intercalate]

/-- The paragraphs of all texts are those of all but the last, and the last. -/
theorem joined_snoc (texts : List Text) (text : Text) :
    joined (texts ++ [text]) = joined [joined texts, text] := by
  have hall : ∀ t ∈ texts.filter (fun t => t != []), t ≠ [] := by
    intro t ht
    exact bne_iff_ne.mp (List.mem_filter.mp ht).2
  rw [joined_pair]
  by_cases htext : text = []
  · have hlast : ([text].filter fun t => t != []) = [] := by
      rw [htext]
      rfl
    rw [joined, List.filter_append, hlast, List.append_nil, if_pos htext,
      htext, joined]
    split
    · assumption
    · rfl
  · have hlast : ([text].filter fun t => t != []) = [text] := by
      apply List.filter_eq_self.mpr
      exact List.forall_mem_singleton.mpr (bne_iff_ne.mpr htext)
    rw [joined, List.filter_append, hlast, if_neg htext, joined]
    generalize texts.filter (fun t => t != []) = kept at hall
    by_cases hkept : kept = []
    · rw [hkept, List.nil_append, if_pos List.intercalate_nil,
        List.intercalate_singleton]
    · rw [if_neg (intercalate_ne_nil hkept hall), intercalate_snoc text hkept]

theorem joined_singleton (text : Text) : joined [text] = text := by
  by_cases htext : text = [] <;> simp [joined, htext]

end AiTeam.Chat
