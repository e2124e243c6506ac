/-
Regular expressions with the priorities of a backtracking matcher: the ways an
expression matches the beginning of a text, the preferred one first.
-/
import Mathlib.Data.List.Basic

namespace AiTeam

/-- Expressions over characters that are read as a `γ`. -/
inductive Regex (γ : Type) where
  | empty
  | one (accepts : γ → Bool)
  | seq (left right : Regex γ)
  | alt (left right : Regex γ)
  /-- As often as possible first. -/
  | star (body : Regex γ)

namespace Regex

variable {α β γ : Type}

/-! ### The matcher -/

/-- A repetition goes on only where its body reads something. -/
def loop (step : List α → List (List α)) : Nat → List α → List (List α)
  | 0, text => [text]
  | fuel + 1, text =>
      ((step text).filter fun rest => rest.length < text.length).flatMap
        (loop step fuel) ++ [text]

/-- What is left of a text after each way to match its beginning. -/
def rests (view : α → γ) : Regex γ → List α → List (List α)
  | .empty, text => [text]
  | .one _, [] => []
  | .one accepts, c :: rest => if accepts (view c) then [rest] else []
  | .seq left right, text => (rests view left text).flatMap (rests view right)
  | .alt left right, text => rests view left text ++ rests view right text
  | .star body, text => loop (rests view body) text.length text

def plus (body : Regex γ) : Regex γ := .seq body (.star body)

def opt (body : Regex γ) : Regex γ := .alt body .empty

/-- One character of each kind after the other. -/
def chars : List (γ → Bool) → Regex γ
  | [] => .empty
  | accepts :: rest => .seq (.one accepts) (chars rest)

/-- The first that matches, of `first` and then the others. -/
def oneOf (first : Regex γ) : List (Regex γ) → Regex γ
  | [] => first
  | next :: rest => .alt first (oneOf next rest)

/-! ### What is matched -/

inductive Matches : Regex γ → List γ → Prop where
  | empty : Matches .empty []
  | one {accepts : γ → Bool} {c : γ} (h : accepts c = true) :
      Matches (.one accepts) [c]
  | seq {left right : Regex γ} {first last : List γ}
      (hfirst : Matches left first) (hlast : Matches right last) :
      Matches (.seq left right) (first ++ last)
  | left {left right : Regex γ} {word : List γ} (h : Matches left word) :
      Matches (.alt left right) word
  | right {left right : Regex γ} {word : List γ} (h : Matches right word) :
      Matches (.alt left right) word
  | done {body : Regex γ} : Matches (.star body) []
  | more {body : Regex γ} {first last : List γ} (hfirst : Matches body first)
      (hlast : Matches (.star body) last) :
      Matches (.star body) (first ++ last)

variable {view : α → γ} {text rest : List α} {regex : Regex γ}

theorem loop_matches {body : Regex γ}
    (hbody : ∀ {text rest}, rest ∈ rests view body text →
      ∃ word, text = word ++ rest ∧ Matches body (word.map view)) {fuel : Nat}
    (h : rest ∈ loop (rests view body) fuel text) :
    ∃ word, text = word ++ rest ∧ Matches (.star body) (word.map view) := by
  induction fuel generalizing text with
  | zero =>
      rw [loop, List.mem_singleton] at h
      exact ⟨[], by simp [h], .done⟩
  | succ fuel ih =>
      rw [loop, List.mem_append, List.mem_flatMap, List.mem_singleton] at h
      rcases h with ⟨next, hnext, h⟩ | rfl
      · obtain ⟨first, rfl, hfirst⟩ := hbody (List.mem_of_mem_filter hnext)
        obtain ⟨last, rfl, hlast⟩ := ih h
        refine ⟨first ++ last, (List.append_assoc _ _ _).symm, ?_⟩
        rw [List.map_append]
        exact .more hfirst hlast
      · exact ⟨[], rfl, .done⟩

/-- The matcher reads only what the expression means. -/
theorem rests_matches (h : rest ∈ rests view regex text) :
    ∃ word, text = word ++ rest ∧ Matches regex (word.map view) := by
  induction regex generalizing text rest with
  | empty =>
      rw [rests, List.mem_singleton] at h
      exact ⟨[], by simp [h], .empty⟩
  | one accepts =>
      cases text with
      | nil => exact absurd h List.not_mem_nil
      | cons c text =>
          rw [rests] at h
          split at h
          · next haccepts =>
              rw [List.mem_singleton] at h
              exact ⟨[c], by simp [h], .one haccepts⟩
          · exact absurd h List.not_mem_nil
  | seq left right ihleft ihright =>
      rw [rests, List.mem_flatMap] at h
      obtain ⟨middle, hmiddle, h⟩ := h
      obtain ⟨first, rfl, hfirst⟩ := ihleft hmiddle
      obtain ⟨last, rfl, hlast⟩ := ihright h
      refine ⟨first ++ last, (List.append_assoc _ _ _).symm, ?_⟩
      rw [List.map_append]
      exact .seq hfirst hlast
  | alt left right ihleft ihright =>
      rw [rests, List.mem_append] at h
      rcases h with h | h
      · obtain ⟨word, htext, hword⟩ := ihleft h
        exact ⟨word, htext, .left hword⟩
      · obtain ⟨word, htext, hword⟩ := ihright h
        exact ⟨word, htext, .right hword⟩
  | star body ih =>
      rw [rests] at h
      exact loop_matches ih h

/-- The least number of characters a match reads. -/
def minLength : Regex γ → Nat
  | .empty => 0
  | .one _ => 1
  | .seq left right => minLength left + minLength right
  | .alt left right => min (minLength left) (minLength right)
  | .star _ => 0

theorem Matches.minLength_le {word : List γ} (h : Matches regex word) :
    minLength regex ≤ word.length := by
  induction h with
  | empty => exact Nat.le_refl 0
  | one h => exact Nat.le_refl 1
  | seq hfirst hlast ihfirst ihlast =>
      rw [minLength, List.length_append]
      exact Nat.add_le_add ihfirst ihlast
  | left h ih => exact Nat.le_trans (Nat.min_le_left _ _) ih
  | right h ih => exact Nat.le_trans (Nat.min_le_right _ _) ih
  | done => exact Nat.zero_le _
  | more hfirst hlast ihfirst ihlast => exact Nat.zero_le _

theorem length_rests (h : rest ∈ rests view regex text) :
    rest.length + minLength regex ≤ text.length := by
  obtain ⟨word, rfl, hword⟩ := rests_matches h
  have hlength := hword.minLength_le
  rw [List.length_map] at hlength
  rw [List.length_append]
  omega

/-! ### Reading through another alphabet -/

theorem loop_map {f : α → β} {step : List β → List (List β)}
    {step' : List α → List (List α)}
    (hstep : ∀ text, step (text.map f) = (step' text).map (List.map f))
    (fuel : Nat) (text : List α) :
    loop step fuel (text.map f) = (loop step' fuel text).map (List.map f) := by
  induction fuel generalizing text with
  | zero => rfl
  | succ fuel ih =>
      have hnext : ∀ nexts : List (List α),
          (((nexts.map (List.map f)).filter
            fun rest => rest.length < (text.map f).length).flatMap
              (loop step fuel)) =
            ((nexts.filter fun rest => rest.length < text.length).flatMap
              (loop step' fuel)).map (List.map f) := by
        intro nexts
        induction nexts with
        | nil => rfl
        | cons next nexts ihnexts =>
            rw [List.map_cons, List.filter_cons, List.filter_cons,
              List.length_map, List.length_map]
            split
            · rw [List.flatMap_cons, List.flatMap_cons, List.map_append, ih]
              simp only [List.length_map] at ihnexts
              rw [ihnexts]
            · simp only [List.length_map] at ihnexts
              exact ihnexts
      rw [loop, loop, hstep, hnext, List.map_append]
      rfl

/-- Matching looks at no more of a character than its view. -/
theorem rests_map (view : β → γ) (f : α → β) (regex : Regex γ)
    (text : List α) :
    rests view regex (text.map f) =
      (rests (fun c => view (f c)) regex text).map (List.map f) := by
  induction regex generalizing text with
  | empty => rfl
  | one accepts =>
      cases text with
      | nil => rfl
      | cons c text =>
          rw [List.map_cons, rests, rests]
          split <;> rfl
  | seq left right ihleft ihright =>
      rw [rests, rests, ihleft, List.flatMap_map, List.map_flatMap]
      exact List.flatMap_congr fun rest _ => ihright rest
  | alt left right ihleft ihright =>
      rw [rests, rests, ihleft, ihright, List.map_append]
  | star body ih =>
      rw [rests, rests, List.length_map]
      exact loop_map ih text.length text

end Regex

end AiTeam
