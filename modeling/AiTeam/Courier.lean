/-
Couriers: threads that carry rows to a receiver, one request at a time.  A
request travels on its own once it was started, so it may be answered after
its thread gave up on it, and it is answered at most once.
-/
import Mathlib.Data.List.Basic
import AiTeam.Outbox

namespace AiTeam.Courier

universe u v w

variable {C : Type u} {R : Type v} {X : Type w}

inductive Phase (R : Type v) where
  | travelling
  | answered (reply : R)
deriving DecidableEq

structure Request (C : Type u) (R : Type v) where
  row : C
  phase : Phase R
deriving DecidableEq

/-- A thread waits for the request of `row` and has the rows of `rest` to
visit; `memo` is what it remembers from one request to the next. -/
structure Thread (C : Type u) (X : Type w) where
  request : Nat
  row : C
  rest : List C
  memo : X
deriving DecidableEq

structure Lanes (C : Type u) (R : Type v) (X : Type w) where
  threads : List (Thread C X)
  wire : List (Request C R)
deriving DecidableEq

variable {lanes : Lanes C R X} {index : Nat} {row other : C} {rest : List C}
  {reply : R} {ok : C → Prop}

namespace Lanes

def empty : Lanes C R X := ⟨[], []⟩

/-- A thread starts the request of `row`. -/
def start (lanes : Lanes C R X) (row : C) (rest : List C) (memo : X) :
    Lanes C R X where
  threads := lanes.threads ++ [⟨lanes.wire.length, row, rest, memo⟩]
  wire := lanes.wire ++ [⟨row, .travelling⟩]

/-- The request at `index` is answered. -/
def answer (lanes : Lanes C R X) (index : Nat) (row : C) (reply : R) :
    Lanes C R X :=
  { lanes with wire := lanes.wire.set index ⟨row, .answered reply⟩ }

def waiting (lanes : Lanes C R X) (index : Nat) : Option (Thread C X) :=
  lanes.threads.find? fun thread => decide (thread.request = index)

/-- The thread that waits for `index` leaves. -/
def leave (lanes : Lanes C R X) (index : Nat) : Lanes C R X :=
  { lanes with
    threads := lanes.threads.filter fun thread =>
      decide (thread.request ≠ index) }

/-- All threads die; what travels goes on. -/
def crash (lanes : Lanes C R X) : Lanes C R X :=
  { lanes with threads := [] }

/-- The row can still reach the receiver. -/
def Held (lanes : Lanes C R X) (row : C) : Prop :=
  (∃ thread ∈ lanes.threads, row ∈ thread.rest) ∨
    ⟨row, .travelling⟩ ∈ lanes.wire

def Answered (lanes : Lanes C R X) (row : C) (reply : R) : Prop :=
  ⟨row, .answered reply⟩ ∈ lanes.wire

theorem waiting_mem {thread : Thread C X}
    (h : lanes.waiting index = some thread) :
    thread ∈ lanes.threads ∧ thread.request = index :=
  ⟨List.mem_of_find?_eq_some h, by simpa using List.find?_some h⟩

theorem held_start {memo : X} (h : (lanes.start row rest memo).Held other) :
    lanes.Held other ∨ other ∈ row :: rest := by
  rcases h with ⟨thread, hthread, hrest⟩ | hwire
  · rcases List.mem_append.mp hthread with hold | hnew
    · exact .inl (.inl ⟨thread, hold, hrest⟩)
    · cases List.mem_singleton.mp hnew
      exact .inr (List.mem_cons_of_mem row hrest)
  · rcases List.mem_append.mp hwire with hold | hnew
    · exact .inl (.inr hold)
    · cases List.mem_singleton.mp hnew
      exact .inr List.mem_cons_self

theorem answered_start {memo : X}
    (h : (lanes.start row rest memo).Answered other reply) :
    lanes.Answered other reply := by
  rcases List.mem_append.mp h with hold | hnew
  · exact hold
  · exact nomatch List.mem_singleton.mp hnew

theorem held_answer (h : (lanes.answer index row reply).Held other) :
    lanes.Held other := by
  rcases h with hrest | hwire
  · exact .inl hrest
  · rcases List.mem_or_eq_of_mem_set hwire with hold | hnew
    · exact .inr hold
    · exact nomatch hnew

theorem answered_answer {reply' : R}
    (h : (lanes.answer index row reply).Answered other reply') :
    lanes.Answered other reply' ∨ (other = row ∧ reply' = reply) := by
  rcases List.mem_or_eq_of_mem_set h with hold | hnew
  · exact .inl hold
  · cases hnew
    exact .inr ⟨rfl, rfl⟩

theorem held_leave (h : (lanes.leave index).Held other) : lanes.Held other := by
  rcases h with ⟨thread, hthread, hrest⟩ | hwire
  · exact .inl ⟨thread, (List.mem_filter.mp hthread).1, hrest⟩
  · exact .inr hwire

theorem held_crash (h : lanes.crash.Held other) : lanes.Held other := by
  rcases h with ⟨thread, hthread, _⟩ | hwire
  · exact nomatch hthread
  · exact .inr hwire

/-- Every row under way is fine, and every thread waits for the request of its
own row. -/
structure Linked (ok : C → Prop) (lanes : Lanes C R X) : Prop where
  rests : ∀ thread ∈ lanes.threads, ∀ row ∈ thread.rest, ok row
  wire : ∀ request ∈ lanes.wire, ok request.row
  waits : ∀ thread ∈ lanes.threads, ∃ phase,
    lanes.wire[thread.request]? = some ⟨thread.row, phase⟩

theorem Linked.empty (ok : C → Prop) : Linked ok (empty : Lanes C R X) := by
  constructor <;> intro _ h <;> exact nomatch h

section

variable (h : Linked ok lanes)
include h

theorem Linked.mono {ok' : C → Prop} (himp : ∀ row, ok row → ok' row) :
    Linked ok' lanes where
  rests := fun thread hthread row hrow =>
    himp row (h.rests thread hthread row hrow)
  wire := fun request hrequest => himp _ (h.wire request hrequest)
  waits := h.waits

theorem Linked.held (hheld : lanes.Held row) : ok row := by
  rcases hheld with ⟨thread, hthread, hrest⟩ | hwire
  · exact h.rests thread hthread row hrest
  · exact h.wire _ hwire

theorem Linked.answered (hanswered : lanes.Answered row reply) : ok row :=
  h.wire _ hanswered

theorem Linked.start (memo : X) (hrows : ∀ other ∈ row :: rest, ok other) :
    Linked ok (lanes.start row rest memo) where
  rests := by
    intro thread hthread other hother
    rcases List.mem_append.mp hthread with hold | hnew
    · exact h.rests thread hold other hother
    · cases List.mem_singleton.mp hnew
      exact hrows other (List.mem_cons_of_mem row hother)
  wire := by
    intro request hrequest
    rcases List.mem_append.mp hrequest with hold | hnew
    · exact h.wire request hold
    · cases List.mem_singleton.mp hnew
      exact hrows row List.mem_cons_self
  waits := by
    intro thread hthread
    rcases List.mem_append.mp hthread with hold | hnew
    · obtain ⟨phase, hphase⟩ := h.waits thread hold
      have hlt := (List.getElem?_eq_some_iff.mp hphase).1
      refine ⟨phase, ?_⟩
      rw [Lanes.start, List.getElem?_append_left hlt]
      exact hphase
    · cases List.mem_singleton.mp hnew
      exact ⟨.travelling, by simp [Lanes.start]⟩

theorem Linked.answer {phase : Phase R}
    (hindex : lanes.wire[index]? = some ⟨row, phase⟩) (reply : R) :
    Linked ok (lanes.answer index row reply) where
  rests := h.rests
  wire := by
    intro request hrequest
    rcases List.mem_or_eq_of_mem_set hrequest with hold | rfl
    · exact h.wire request hold
    · exact h.wire ⟨row, phase⟩ (List.mem_of_getElem? hindex)
  waits := by
    intro thread hthread
    obtain ⟨other, hother⟩ := h.waits thread hthread
    by_cases hsame : index = thread.request
    · subst hsame
      rw [hindex] at hother
      cases hother
      have hlt := (List.getElem?_eq_some_iff.mp hindex).1
      exact ⟨_, List.getElem?_set_self hlt⟩
    · refine ⟨other, ?_⟩
      rw [Lanes.answer, List.getElem?_set_ne hsame]
      exact hother

theorem Linked.leave (index : Nat) :
    Linked ok (lanes.leave index) where
  rests := fun thread hthread =>
    h.rests thread ((List.mem_filter.mp hthread).1)
  wire := h.wire
  waits := fun thread hthread =>
    h.waits thread ((List.mem_filter.mp hthread).1)

theorem Linked.crash : Linked ok lanes.crash where
  rests := fun _ hthread => nomatch hthread
  wire := h.wire
  waits := fun _ hthread => nomatch hthread

end

/-! ### What an outbox sees of its couriers -/

variable {P : Type u} {T : Type v}

/-- The copies under way, of the rows that are copies of this key. -/
def copies (copyOf : C → Option (Outbox.Copy P T)) (lanes : Lanes C R X) :
    Set (Outbox.Copy P T) :=
  {copy | ∃ row, lanes.Held row ∧ copyOf row = some copy}

/-- The tokens under which the receiver accepted a copy of this key. -/
def acked (copyOf : C → Option (Outbox.Copy P T)) (accepted : R)
    (lanes : Lanes C R X) : Set T :=
  {token | ∃ row copy, lanes.Answered row accepted ∧
    copyOf row = some copy ∧ copy.token = token}

theorem copies_subset {copyOf : C → Option (Outbox.Copy P T)}
    {lanes' : Lanes C R X} (h : ∀ row, lanes'.Held row → lanes.Held row) :
    copies copyOf lanes' ⊆ copies copyOf lanes := by
  rintro copy ⟨row, hheld, hcopy⟩
  exact ⟨row, h row hheld, hcopy⟩

theorem acked_subset {copyOf : C → Option (Outbox.Copy P T)} {accepted : R}
    {lanes' : Lanes C R X}
    (h : ∀ row, lanes'.Answered row accepted →
      lanes.Answered row accepted) :
    acked copyOf accepted lanes' ⊆ acked copyOf accepted lanes := by
  rintro token ⟨row, copy, hanswered, hcopy⟩
  exact ⟨row, copy, h row hanswered, hcopy⟩

/-- An answer acknowledges the copy it is about, and no other. -/
theorem acked_answer {copyOf : C → Option (Outbox.Copy P T)} {accepted : R}
    {made : Outbox.Copy P T} (hmade : copyOf row = some made) :
    acked copyOf accepted (lanes.answer index row reply) ⊆
      insert made.token (acked copyOf accepted lanes) := by
  rintro token ⟨other, copy, hanswered, hcopy, rfl⟩
  rcases answered_answer hanswered with hold | ⟨rfl, _⟩
  · exact .inr ⟨other, copy, hold, hcopy, rfl⟩
  · rw [Option.some.inj (hmade.symm.trans hcopy)]
    exact .inl rfl

theorem acked_answer_other {copyOf : C → Option (Outbox.Copy P T)}
    {accepted : R} (h : accepted = reply → copyOf row = none) :
    acked copyOf accepted (lanes.answer index row reply) ⊆
      acked copyOf accepted lanes := by
  rintro token ⟨other, copy, hanswered, hcopy⟩
  rcases answered_answer hanswered with hold | ⟨rfl, hreply⟩
  · exact ⟨other, copy, hold, hcopy⟩
  · cases (h hreply).symm.trans hcopy.1

end Lanes

end AiTeam.Courier
