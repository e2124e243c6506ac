/-
Readers that consume the start of a list, and what they take and refuse as
grammars.
-/
import Mathlib.Data.List.Basic

namespace AiTeam.Reading

universe u

variable {σ ε α β : Type u}

/-- Consumes the start of the input, or fails. -/
abbrev Reader (σ ε α : Type u) : Type u := StateT (List σ) (Except ε) α

/-- The next `n` elements. -/
def read (n : Nat) (short : ε) : Reader σ ε (List σ) := fun data =>
  if data.length < n then .error short else .ok (data.take n, data.drop n)

def times (n : Nat) (reader : Reader σ ε α) : Reader σ ε (List α) :=
  match n with
  | 0 => pure []
  | n + 1 => do
      let first ← reader
      let rest ← times n reader
      pure (first :: rest)

/-- Which start of the input stands for which result. -/
abbrev Grammar (σ α : Type u) : Type u := List σ → α → Prop

/-- The reader takes what the grammar derives, and leaves the rest. -/
def Takes (reader : Reader σ ε α) (grammar : Grammar σ α) : Prop :=
  ∀ data result rest, reader data = .ok (result, rest) ↔
    ∃ taken, data = taken ++ rest ∧ grammar taken result

/-- The reader fails with an error that is `user` just where `refused`. -/
def Refuses (user : ε → Prop) (reader : Reader σ ε α)
    (refused : List σ → Prop) : Prop :=
  ∀ data, (∃ error, reader data = .error error ∧ user error) ↔ refused data

/-- One derivation and then one that depends on its result. -/
def Sequel (first : Grammar σ α) (second : α → Grammar σ β) : Grammar σ β :=
  fun taken result => ∃ front back middle, taken = front ++ back ∧
    first front middle ∧ second middle back result

/-- What stands behind a derivation is refused. -/
def Behind (first : Grammar σ α) (refused : α → List σ → Prop)
    (data : List σ) : Prop :=
  ∃ taken rest result, data = taken ++ rest ∧ first taken result ∧
    refused result rest

variable {first reader : Reader σ ε α} {second : α → Reader σ ε β}
  {user : ε → Prop} {G : Grammar σ α} {B : List σ → Prop}

theorem bind_ok {data rest : List σ} {result : β} :
    (first >>= second) data = .ok (result, rest) ↔
      ∃ middle left, first data = .ok (middle, left) ∧
        second middle left = .ok (result, rest) := by
  show Except.bind (first data) _ = _ ↔ _
  cases first data with
  | error e =>
      constructor
      · exact fun h => nomatch h
      · rintro ⟨middle, left, h, -⟩
        exact nomatch h
  | ok pair =>
      constructor
      · exact fun h => ⟨pair.1, pair.2, rfl, h⟩
      · rintro ⟨middle, left, h, hsecond⟩
        cases h
        exact hsecond

theorem bind_error {data : List σ} {error : ε} :
    (first >>= second) data = .error error ↔
      first data = .error error ∨ ∃ middle left,
        first data = .ok (middle, left) ∧ second middle left = .error error := by
  show Except.bind (first data) _ = _ ↔ _
  cases first data with
  | error e =>
      constructor
      · intro h
        cases h
        exact .inl rfl
      · rintro (h | ⟨middle, left, h, -⟩)
        · cases h
          rfl
        · exact nomatch h
  | ok pair =>
      constructor
      · exact fun h => .inr ⟨pair.1, pair.2, rfl, h⟩
      · rintro (h | ⟨middle, left, h, hsecond⟩)
        · exact nomatch h
        · cases h
          exact hsecond

/-- What a reader takes, it takes with anything behind it. -/
theorem Takes.run {grammar : Grammar σ α} (h : Takes reader grammar)
    {taken : List σ} {result : α} (hgrammar : grammar taken result)
    (rest : List σ) : reader (taken ++ rest) = .ok (result, rest) :=
  (h _ _ _).mpr ⟨taken, rfl, hgrammar⟩

theorem takes_pure (result : α) :
    Takes (pure result : Reader σ ε α)
      fun taken r => taken = [] ∧ r = result := by
  intro data r rest
  constructor
  · intro h
    cases h
    exact ⟨[], rfl, rfl, rfl⟩
  · rintro ⟨_, rfl, rfl, rfl⟩
    rfl

theorem refuses_pure (user : ε → Prop) (result : α) :
    Refuses user (pure result : Reader σ ε α) fun _ => False := by
  intro data
  constructor
  · rintro ⟨error, h, -⟩
    exact nomatch h
  · exact False.elim

theorem takes_throw (error : ε) :
    Takes (throw error : Reader σ ε α) fun _ _ => False := by
  intro data result rest
  constructor
  · exact fun h => nomatch h
  · rintro ⟨taken, -, h⟩
    exact h.elim

theorem refuses_throw (user : ε → Prop) (error : ε) :
    Refuses user (throw error : Reader σ ε α) fun _ => user error := by
  intro data
  constructor
  · rintro ⟨e, h, huser⟩
    cases h
    exact huser
  · exact fun huser => ⟨error, rfl, huser⟩

theorem takes_read (n : Nat) (short : ε) :
    Takes (read n short : Reader σ ε (List σ)) fun taken result =>
      taken = result ∧ result.length = n := by
  intro data result rest
  rw [read]
  by_cases hshort : data.length < n
  · rw [if_pos hshort]
    apply iff_of_false (fun h => nomatch h)
    rintro ⟨taken, rfl, rfl, hlength⟩
    rw [List.length_append] at hshort
    omega
  · rw [if_neg hshort]
    constructor
    · intro h
      cases h
      exact ⟨data.take n, (List.take_append_drop n data).symm, rfl,
        List.length_take_of_le (Nat.le_of_not_lt hshort)⟩
    · rintro ⟨taken, rfl, rfl, rfl⟩
      rw [List.take_left, List.drop_left]

theorem refuses_read (n : Nat) {short : ε} (huser : user short) :
    Refuses user (read n short : Reader σ ε (List σ)) fun data =>
      data.length < n := by
  intro data
  rw [read]
  by_cases hshort : data.length < n
  · rw [if_pos hshort]
    exact iff_of_true ⟨short, rfl, huser⟩ hshort
  · rw [if_neg hshort]
    apply iff_of_false _ hshort
    rintro ⟨error, h, -⟩
    exact nomatch h

theorem Takes.bind {H : α → Grammar σ β} (hfirst : Takes first G)
    (hsecond : ∀ middle, Takes (second middle) (H middle)) :
    Takes (first >>= second) (Sequel G H) := by
  intro data result rest
  rw [bind_ok]
  constructor
  · rintro ⟨middle, left, hfront, hback⟩
    obtain ⟨front, rfl, hG⟩ := (hfirst _ _ _).mp hfront
    obtain ⟨back, rfl, hH⟩ := (hsecond middle _ _ _).mp hback
    exact ⟨front ++ back, (List.append_assoc ..).symm, front, back, middle, rfl,
      hG, hH⟩
  · rintro ⟨_, rfl, front, back, middle, rfl, hG, hH⟩
    rw [List.append_assoc]
    exact ⟨middle, back ++ rest, hfirst.run hG _, (hsecond middle).run hH _⟩

theorem Refuses.bind {C : α → List σ → Prop} (htakes : Takes first G)
    (hfirst : Refuses user first B)
    (hsecond : ∀ middle, Refuses user (second middle) (C middle)) :
    Refuses user (first >>= second) fun data => B data ∨ Behind G C data := by
  intro data
  simp only [bind_error]
  constructor
  · rintro ⟨error, hfailed | ⟨middle, left, hmiddle, hfailed⟩, huser⟩
    · exact .inl ((hfirst data).mp ⟨error, hfailed, huser⟩)
    · obtain ⟨taken, rfl, hG⟩ := (htakes _ _ _).mp hmiddle
      exact .inr ⟨taken, left, middle, rfl, hG,
        (hsecond middle left).mp ⟨error, hfailed, huser⟩⟩
  · rintro (hB | ⟨taken, rest, middle, rfl, hG, hC⟩)
    · obtain ⟨error, hfailed, huser⟩ := (hfirst data).mpr hB
      exact ⟨error, .inl hfailed, huser⟩
    · obtain ⟨error, hfailed, huser⟩ := (hsecond middle rest).mpr hC
      exact ⟨error, .inr ⟨middle, rest, htakes.run hG rest, hfailed⟩, huser⟩

theorem Takes.congr {H : Grammar σ α} (h : Takes reader G)
    (hiff : ∀ taken result, G taken result ↔ H taken result) :
    Takes reader H := by
  intro data result rest
  rw [h data result rest]
  simp only [hiff]

theorem Refuses.congr {C : List σ → Prop} (h : Refuses user reader B)
    (hiff : ∀ data, B data ↔ C data) : Refuses user reader C :=
  fun data => (h data).trans (hiff data)

theorem Takes.map (f : α → β) (h : Takes reader G) :
    Takes (f <$> reader) fun taken result =>
      ∃ middle, G taken middle ∧ result = f middle := by
  have hbind := h.bind fun middle => takes_pure (f middle)
  rw [bind_pure_comp] at hbind
  apply hbind.congr
  intro taken result
  constructor
  · rintro ⟨front, _, middle, rfl, hG, rfl, rfl⟩
    exact ⟨middle, by rwa [List.append_nil], rfl⟩
  · rintro ⟨middle, hG, rfl⟩
    exact ⟨taken, [], middle, (List.append_nil taken).symm, hG, rfl, rfl⟩

/-- Where every error is one of the user's, what is not taken is refused. -/
theorem Takes.refuses (h : Takes reader G)
    (huser : ∀ data error, reader data = .error error → user error) :
    Refuses user reader fun data =>
      ∀ taken rest result, data = taken ++ rest → ¬ G taken result := by
  intro data
  constructor
  · rintro ⟨error, herror, -⟩ taken rest result rfl hG
    rw [h.run hG rest] at herror
    exact nomatch herror
  · intro hnone
    cases hread : reader data with
    | error error => exact ⟨error, rfl, huser data error hread⟩
    | ok pair =>
        obtain ⟨taken, hdata, hG⟩ := (h data pair.1 pair.2).mp hread
        exact absurd hG (hnone taken pair.2 pair.1 hdata)

/-! ### Repetition -/

/-- Derivations one after the other, each with its result. -/
def Many (G : Grammar σ α) (parts : List (List σ × α)) : Prop :=
  ∀ part ∈ parts, G part.1 part.2

/-- What the parts took. -/
def taken (parts : List (List σ × α)) : List σ := parts.flatMap Prod.fst

theorem taken_cons (part : List σ × α) (parts : List (List σ × α)) :
    taken (part :: parts) = part.1 ++ taken parts := rfl

theorem takes_times (h : Takes reader G) (n : Nat) :
    Takes (times n reader) fun data results => ∃ parts : List (List σ × α),
      parts.length = n ∧ Many G parts ∧ data = taken parts ∧
        results = parts.map Prod.snd := by
  induction n with
  | zero =>
      apply (takes_pure []).congr
      intro data results
      constructor
      · rintro ⟨rfl, rfl⟩
        exact ⟨[], rfl, List.forall_mem_nil _, rfl, rfl⟩
      · rintro ⟨parts, hlength, -, rfl, rfl⟩
        rw [List.length_eq_zero_iff] at hlength
        subst hlength
        exact ⟨rfl, rfl⟩
  | succ n ih =>
      apply (h.bind fun first => ih.bind fun rest => takes_pure _).congr
      intro data results
      constructor
      · rintro ⟨front, _, first, rfl, hfirst, back, _, rest, rfl,
          ⟨parts, rfl, hparts, rfl, rfl⟩, rfl, rfl⟩
        exact ⟨(front, first) :: parts, rfl,
          List.forall_mem_cons.mpr ⟨hfirst, hparts⟩,
          by rw [taken_cons, List.append_nil], rfl⟩
      · rintro ⟨_ | ⟨part, parts⟩, hlength, hparts, rfl, rfl⟩
        · exact nomatch hlength
        · obtain ⟨hpart, hparts⟩ := List.forall_mem_cons.mp hparts
          exact ⟨part.1, taken parts, part.2, rfl, hpart, taken parts, [],
            parts.map Prod.snd, (List.append_nil _).symm,
            ⟨parts, Nat.succ.inj hlength, hparts, rfl, rfl⟩, rfl, rfl⟩

/-- Fewer than `n` parts, and what stands behind them is refused. -/
def Broken (n : Nat) (G : Grammar σ α) (B : List σ → Prop) (data : List σ) :
    Prop :=
  ∃ (parts : List (List σ × α)) (rest : List σ), parts.length < n ∧
    Many G parts ∧ data = taken parts ++ rest ∧ B rest

theorem refuses_times (htakes : Takes reader G) (h : Refuses user reader B)
    (n : Nat) : Refuses user (times n reader) (Broken n G B) := by
  induction n with
  | zero =>
      apply (refuses_pure user []).congr
      intro data
      apply iff_of_false id
      rintro ⟨parts, rest, hlength, -⟩
      exact Nat.not_lt_zero _ hlength
  | succ n ih =>
      apply (Refuses.bind htakes h fun first =>
        Refuses.bind (takes_times htakes n) ih
          fun rest => refuses_pure user _).congr
      intro data
      constructor
      · rintro (hB | ⟨front, _, first, rfl, hfirst,
          ⟨parts, rest, hlength, hparts, rfl, hB⟩ | ⟨_, _, _, -, -, hfalse⟩⟩)
        · exact ⟨[], data, Nat.succ_pos n, List.forall_mem_nil _, rfl, hB⟩
        · exact ⟨(front, first) :: parts, rest, Nat.succ_lt_succ hlength,
            List.forall_mem_cons.mpr ⟨hfirst, hparts⟩,
            by rw [taken_cons, List.append_assoc], hB⟩
        · exact hfalse.elim
      · rintro ⟨_ | ⟨part, parts⟩, rest, hlength, hparts, rfl, hB⟩
        · exact .inl hB
        · obtain ⟨hpart, hparts⟩ := List.forall_mem_cons.mp hparts
          exact .inr ⟨part.1, taken parts ++ rest, part.2,
            List.append_assoc .., hpart,
            .inl ⟨parts, rest, Nat.lt_of_succ_lt_succ hlength, hparts, rfl, hB⟩⟩

end AiTeam.Reading
