/-
Outboxes with claims.  For one key the sender holds a current payload, hands
out copies of it under fresh claim tokens, and counts the payload as sent when
a copy claimed under the token it still holds was acknowledged.  The receiver
keeps whatever copy reached it last.
-/
import Mathlib.Data.Set.Insert
import Mathlib.Logic.Relation

namespace AiTeam.Outbox

universe u v

variable {P : Type u} {T : Type v}

inductive Status (T : Type v) where
  | idle
  | sending (token : T)
  | sent

/-- A copy of the payload, as it was when it was claimed. -/
structure Copy (P : Type u) (T : Type v) where
  token : T
  payload : P

/-- One key.  `copies` can still reach the receiver, the tokens in `acked` can
still be reported to the sender, `applied` is what the receiver keeps. -/
structure State (P : Type u) (T : Type v) where
  payload : P
  status : Status T
  copies : Set (Copy P T)
  acked : Set T
  applied : Option P

/-- What a step may do.  Copies and acknowledgements may be lost in any step,
a reset may change the payload, and other senders may write to the receiver as
long as they do not replace the current payload. -/
inductive Step : State P T → State P T → Prop where
  | reset {s s' : State P T} (hidle : s'.status = .idle) : Step s s'
  | stay {s s' : State P T} (hpayload : s'.payload = s.payload)
      (hstatus : s'.status = s.status) (hcopies : s'.copies ⊆ s.copies)
      (hacked : s'.acked ⊆ s.acked)
      (hkeep : s.applied = some s.payload → s'.applied = some s'.payload) :
      Step s s'
  | claim {s s' : State P T} (token : T)
      (hfresh : ∀ copy ∈ s.copies, copy.token ≠ token)
      (hunacked : token ∉ s.acked) (hpayload : s'.payload = s.payload)
      (hstatus : s'.status = .sending token)
      (hcopies : s'.copies ⊆ insert ⟨token, s.payload⟩ s.copies)
      (hacked : s'.acked ⊆ s.acked) : Step s s'
  | arrive {s s' : State P T} (copy : Copy P T) (hcopy : copy ∈ s.copies)
      (hpayload : s'.payload = s.payload) (hstatus : s'.status = s.status)
      (hcopies : s'.copies ⊆ s.copies)
      (hacked : s'.acked ⊆ insert copy.token s.acked)
      (hcurrent : copy.payload = s.payload → s'.applied = some s'.payload)
      (hkeep : s.applied = some s.payload → s'.applied = some s'.payload) :
      Step s s'
  | settle {s s' : State P T} (token : T)
      (hsending : s.status = .sending token) (htoken : token ∈ s.acked)
      (hstatus : s'.status = .sent)
      (hkeep : s.applied = some s.payload → s'.applied = some s'.payload) :
      Step s s'

/-- A step that changes neither row nor receiver. -/
theorem Step.of_eq {s s' : State P T} (hpayload : s'.payload = s.payload)
    (hstatus : s'.status = s.status) (hcopies : s'.copies ⊆ s.copies)
    (hacked : s'.acked ⊆ s.acked) (happlied : s'.applied = s.applied) :
    Step s s' :=
  .stay hpayload hstatus hcopies hacked fun h => by
    rw [happlied, hpayload, h]

/-- The invariant of a key: a copy under the live token is current, and so is
what the receiver keeps once that token was acknowledged or the row is sent. -/
structure Good (s : State P T) : Prop where
  claimed : ∀ token, s.status = .sending token →
    ∀ copy ∈ s.copies, copy.token = token → copy.payload = s.payload
  acked : ∀ token, s.status = .sending token → token ∈ s.acked →
    s.applied = some s.payload
  sent : s.status = .sent → s.applied = some s.payload

theorem Good.of_idle {s : State P T} (hidle : s.status = .idle) : Good s where
  claimed := by simp [hidle]
  acked := by simp [hidle]
  sent := by simp [hidle]

theorem Step.good {s s' : State P T} (hstep : Step s s') (hgood : Good s) :
    Good s' := by
  cases hstep with
  | reset hidle => exact Good.of_idle hidle
  | stay hpayload hstatus hcopies hacked hkeep =>
      refine ⟨?_, ?_, ?_⟩ <;> rw [hstatus]
      · intro token hs copy hcopy
        rw [hpayload]
        exact hgood.claimed token hs copy (hcopies hcopy)
      · exact fun token hs htoken =>
          hkeep (hgood.acked token hs (hacked htoken))
      · exact fun hs => hkeep (hgood.sent hs)
  | claim token hfresh hunacked hpayload hstatus hcopies hacked =>
      refine ⟨?_, ?_, ?_⟩ <;> rw [hstatus]
      · intro token' heq copy hcopy htoken
        cases heq
        rw [hpayload]
        rcases hcopies hcopy with rfl | hold
        · rfl
        · exact absurd htoken (hfresh copy hold)
      · intro token' heq htoken
        cases heq
        exact absurd (hacked htoken) hunacked
      · exact fun h => nomatch h
  | arrive copy hcopy hpayload hstatus hcopies hacked hcurrent hkeep =>
      refine ⟨?_, ?_, ?_⟩ <;> rw [hstatus]
      · intro token hs other hother
        rw [hpayload]
        exact hgood.claimed token hs other (hcopies hother)
      · intro token hs htoken
        -- A copy under the live token is current, whatever arrived before.
        rcases hacked htoken with rfl | hold
        · exact hcurrent (hgood.claimed _ hs copy hcopy rfl)
        · exact hkeep (hgood.acked token hs hold)
      · exact fun hs => hkeep (hgood.sent hs)
  | settle token hsending htoken hstatus hkeep =>
      refine ⟨?_, ?_, ?_⟩ <;> rw [hstatus]
      · exact fun _ h => nomatch h
      · exact fun _ h => nomatch h
      · exact fun _ => hkeep (hgood.acked token hsending htoken)

/-- The invariant along any number of steps. -/
theorem Good.of_steps {s s' : State P T}
    (hsteps : Relation.ReflTransGen Step s s') (hgood : Good s) : Good s' := by
  induction hsteps with
  | refl => exact hgood
  | tail _ hstep ih => exact hstep.good ih

end AiTeam.Outbox
