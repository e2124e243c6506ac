/-
What the redaction of single deltas makes of the credentials of the whole
text.  Characters are told apart by their place in the stream.
-/
import AiTeam.EventSse.Secrets

namespace AiTeam.EventSse

open AiTeam.Redaction
open AiTeam.Unicode (Text lit)

/-! ### What one delta loses -/

section

variable {α : Type} (view : α → Nat) (write : Nat → α)
  (safeText : List α → Nat → List α)

/-- A character of a delta is in a credential found in the delta alone, or is
cut off at its end, or the whole delta is too much for an event. -/
def Lost (delta : TextDelta α) (c : α) : Prop :=
  if delta.fits ((delta.serialized view write).map view) then
    Hidden (secretFinder view) delta.text c ∨
      Cut maxTextChars (redactSecrets view write delta.text) c
  else c ∈ delta.text

/-- Every credential of the whole text loses a character in some delta. -/
def Covered (deltas : List (TextDelta α)) : Prop :=
  ∀ secret ∈ credentials view (source deltas),
    ∃ c ∈ secret, ∃ delta ∈ deltas, Lost view write delta c

/-- No credential of the whole text comes out over the deltas. -/
def Unseen (deltas : List (TextDelta α)) : Prop :=
  ∀ secret ∈ credentials view (source deltas),
    ¬ secret <:+: streamed view write safeText deltas

variable {view write safeText}

theorem emitted_eq (delta : TextDelta α) :
    emitted view write safeText delta =
      if delta.fits ((delta.serialized view write).map view) then
        safeMessageText view write delta.text maxTextChars
      else [] := by
  rw [emitted, serialize_raw]
  rfl

theorem emitted_passes (delta : TextDelta α) :
    Passes delta.text (emitted view write safeText delta)
      (Lost view write delta) := by
  rw [emitted_eq]
  unfold Lost
  split
  · exact passes_bound_redact _ _ _ _ _
  · exact passes_nothing _

/-- What is not covered comes out, whatever the characters are. -/
theorem Unseen.covered {deltas : List (TextDelta α)}
    (h : Unseen view write safeText deltas) :
    Covered view write deltas := by
  intro secret hsecret
  by_contra hkept
  push Not at hkept
  obtain ⟨hne, before, after, hsource⟩ := block_stretch hsecret
  have hpasses : Passes (source deltas) (streamed view write safeText deltas)
      fun c => ∃ delta ∈ deltas, Lost view write delta c :=
    passes_parts fun delta _ => emitted_passes delta
  obtain ⟨first, last, hout, -, -⟩ := hpasses.stretch before secret after
    hsource hne fun c hc ⟨delta, hdelta, hlost⟩ => hkept c hc delta hdelta hlost
  exact h secret hsecret ⟨first, last, hout.symm⟩

/-- A character that no delta repeats comes out at most as often as it stands
in a delta, and less often where it is lost. -/
theorem emitted_count [DecidableEq α] {delta : TextDelta α} {c : α}
    (hown : ∀ u, c ≠ write u) :
    (emitted view write safeText delta).count c ≤ delta.text.count c ∧
      (Lost view write delta c →
        (emitted view write safeText delta).count c < delta.text.count c) := by
  have hmask : c ∉ placeholder.map write := by
    intro hmem
    obtain ⟨u, -, hu⟩ := List.mem_map.mp hmem
    exact hown u hu.symm
  have hredact := count_redact (secretFinder view) hmask delta.text
  have hbound : (safeMessageText view write delta.text maxTextChars).count c ≤
      (redactSecrets view write delta.text).count c :=
    count_bound_le (hown ellipsis) _
  rw [emitted_eq]
  unfold Lost
  split
  · constructor
    · exact hbound.trans (by rw [← hredact]; exact Nat.le_add_right _ _)
    · rintro (⟨block, hblock, hc⟩ | hcut)
      · have hpos : 0 < (blocks (secretFinder view) delta.text).flatten.count
            c :=
          List.count_pos_iff.mpr (List.mem_flatten.mpr ⟨block, hblock, hc⟩)
        have hle : (safeMessageText view write delta.text maxTextChars).count c
            ≤ (redact (secretFinder view) (placeholder.map write)
              delta.text).count c := hbound
        omega
      · have hlt := count_bound_lt (hown ellipsis) hcut
        have hle : (redactSecrets view write delta.text).count c ≤
            delta.text.count c := by
          rw [← hredact]
          exact Nat.le_add_right _ _
        exact hlt.trans_le hle
  · rw [List.count_nil]
    exact ⟨Nat.zero_le _, List.count_pos_iff.mpr⟩

/-- Where every character has a place of its own, a credential that is covered
does not come out. -/
theorem Covered.unseen [DecidableEq α] {deltas : List (TextDelta α)}
    (h : Covered view write deltas) (hnodup : (source deltas).Nodup)
    (hown : ∀ c ∈ source deltas, ∀ u, c ≠ write u) :
    Unseen view write safeText deltas := by
  intro secret hsecret hwithin
  obtain ⟨c, hc, delta, hdelta, hlost⟩ := h secret hsecret
  obtain ⟨-, before, after, hsource⟩ := block_stretch hsecret
  have hmem : c ∈ source deltas := by
    rw [hsource]
    exact List.mem_append_left _ (List.mem_append_right _ hc)
  have hcount := fun delta : TextDelta α =>
    @emitted_count α view write safeText _ delta c (hown c hmem)
  have hgone : c ∉ streamed view write safeText deltas :=
    not_mem_parts (fun d _ => (hcount d).1)
      ⟨delta, hdelta, (hcount delta).2 hlost⟩ hnodup
  exact hgone (hwithin.subset hc)

end

/-! ### Characters with their places -/

/-- A code unit of the stream, with its place, or one that is written in. -/
abbrev Placed := Nat × Option Nat

def write (u : Nat) : Placed := (u, none)

/-- A stream in which every code unit has its place. -/
def place : Nat → List (TextDelta Nat) → List (TextDelta Placed)
  | _, [] => []
  | start, delta :: rest =>
      { contentIndex := delta.contentIndex
        text := (delta.text.zipIdx start).map fun (u, i) => (u, some i)
        fits := delta.fits } :: place (start + delta.text.length) rest

def placed (deltas : List (TextDelta Nat)) : List (TextDelta Placed) :=
  place 0 deltas

theorem source_place (start : Nat) (deltas : List (TextDelta Nat)) :
    source (place start deltas) =
      ((source deltas).zipIdx start).map fun (u, i) => (u, some i) := by
  induction deltas generalizing start with
  | nil => rfl
  | cons delta deltas ih =>
      rw [source, source, place, List.flatMap_cons, List.flatMap_cons,
        List.zipIdx_append, List.map_append]
      exact congrArg _ (ih _)

theorem source_placed_nodup (deltas : List (TextDelta Nat)) :
    (source (placed deltas)).Nodup := by
  have hplaces : ((source (placed deltas)).map Prod.snd).Nodup := by
    rw [placed, source_place, List.map_map]
    have hsome : (Prod.snd ∘ fun (p : Nat × Nat) => (p.1, some p.2)) =
        (some ∘ Prod.snd) := rfl
    rw [hsome, ← List.map_map, List.zipIdx_map_snd]
    exact List.Nodup.map (fun _ _ h => Option.some.inj h) List.nodup_range'
  exact hplaces.of_map _

theorem source_placed_own (deltas : List (TextDelta Nat)) :
    ∀ c ∈ source (placed deltas), ∀ u, c ≠ write u := by
  intro c hc u heq
  rw [placed, source_place] at hc
  obtain ⟨pair, -, rfl⟩ := List.mem_map.mp hc
  exact nomatch congrArg Prod.snd heq

/-! ### Without the places -/

/-- A match depends on the code units alone. -/
theorem anySecret_fst (text : List Placed) :
    anySecret id (text.map Prod.fst) = anySecret Prod.fst text := by
  have hrests : ∀ (regex : Regex Nat) (text : List Placed),
      Regex.rests id regex (text.map Prod.fst) =
        (Regex.rests Prod.fst regex text).map (List.map Prod.fst) :=
    fun regex text => Regex.rests_map id Prod.fst regex text
  have hurls : ((Regex.rests id urlParameter (text.map Prod.fst)).flatMap
      fun value => (Regex.rests id urlValue value).map
        fun rest => (value, rest)) =
      ((Regex.rests Prod.fst urlParameter text).flatMap fun value =>
        (Regex.rests Prod.fst urlValue value).map fun rest =>
          (value, rest)).map
            (Prod.map (List.map Prod.fst) (List.map Prod.fst)) := by
    rw [hrests, List.flatMap_map, List.map_flatMap]
    apply List.flatMap_congr
    intro value _
    rw [hrests, List.map_map, List.map_map]
    rfl
  rw [anySecret, anySecret, hurls, hrests]
  cases (Regex.rests Prod.fst urlParameter text).flatMap fun value =>
      (Regex.rests Prod.fst urlValue value).map fun rest => (value, rest) with
  | cons pair more => simp
  | nil =>
      rw [List.map_nil]
      dsimp only
      cases Regex.rests Prod.fst inlineSecret text with
      | nil => rfl
      | cons rest more => simp

theorem credentials_fst (text : List Placed) :
    credentials id (text.map Prod.fst) =
      (credentials Prod.fst text).map (List.map Prod.fst) :=
  blocks_map anySecret_fst text

theorem safeMessageText_fst (text : List Placed) (max : Nat) :
    safeMessageText id id (text.map Prod.fst) max =
      (safeMessageText Prod.fst write text max).map Prod.fst := by
  have hmask : placeholder.map id =
      (placeholder.map write).map Prod.fst := by
    rw [List.map_map]
    rfl
  have hredact : redactSecrets id id (text.map Prod.fst) =
      (redactSecrets Prod.fst write text).map Prod.fst := by
    rw [redactSecrets, hmask]
    exact redact_map anySecret_fst _ _
  rw [safeMessageText, hredact]
  exact bound_map max (write ellipsis) _

def TextDelta.erase (delta : TextDelta Placed) : TextDelta Nat where
  contentIndex := delta.contentIndex
  text := delta.text.map Prod.fst
  fits := delta.fits

theorem erase_place (start : Nat) (deltas : List (TextDelta Nat)) :
    (place start deltas).map TextDelta.erase = deltas := by
  induction deltas generalizing start with
  | nil => rfl
  | cons delta deltas ih =>
      have htext : ((delta.text.zipIdx start).map
          fun (u, i) => (u, some i)).map Prod.fst = delta.text := by
        rw [List.map_map]
        exact List.zipIdx_map_fst start delta.text
      rw [place, List.map_cons, ih, TextDelta.erase]
      simp only [htext]

variable {safeText : Text → Nat → Text}
  {safePlaced : List Placed → Nat → List Placed}

theorem source_erase (deltas : List (TextDelta Placed)) :
    source (deltas.map TextDelta.erase) = (source deltas).map Prod.fst := by
  rw [source, source, List.flatMap_map, List.map_flatMap]
  rfl

theorem streamed_erase (deltas : List (TextDelta Placed)) :
    streamed id id safeText (deltas.map TextDelta.erase) =
      (streamed Prod.fst write safePlaced deltas).map Prod.fst := by
  rw [streamed, streamed, List.flatMap_map, List.map_flatMap]
  apply List.flatMap_congr
  intro delta _
  have htext := safeMessageText_fst delta.text maxTextChars
  have hevent : (delta.erase.serialized id id).map id =
      (delta.serialized Prod.fst write).map Prod.fst := by
    simp only [TextDelta.serialized, AssistantMessageEvent.map,
      TextDelta.erase, Option.map_some, Option.map_none, htext, List.map_id]
  rw [emitted_eq, emitted_eq, hevent]
  show (if delta.fits _ then safeMessageText id id (delta.text.map Prod.fst) _
    else []) = _
  rw [htext]
  split <;> rfl

/-- No credential of the text comes out, character by character, exactly when
each loses a character in some delta; and one that loses none stands as it is
in the text that comes out. -/
theorem streamed_redaction_iff (deltas : List (TextDelta Nat)) :
    (Covered Prod.fst write (placed deltas) ↔
      Unseen Prod.fst write safePlaced (placed deltas)) ∧
    (Unseen id id safeText deltas →
      Covered Prod.fst write (placed deltas)) := by
  have hcovered : Covered Prod.fst write (placed deltas) ↔
      Unseen Prod.fst write safePlaced (placed deltas) :=
    ⟨fun h => h.unseen (source_placed_nodup deltas) (source_placed_own deltas),
      Unseen.covered⟩
  refine ⟨hcovered, fun h => hcovered.mpr ?_⟩
  intro secret hsecret hwithin
  have herase : (placed deltas).map TextDelta.erase = deltas :=
    erase_place 0 deltas
  apply h (secret.map Prod.fst)
  · rw [← herase, source_erase, credentials_fst]
    exact List.mem_map_of_mem hsecret
  · have hstreamed : streamed id id safeText
        ((placed deltas).map TextDelta.erase) =
          (streamed Prod.fst write safePlaced (placed deltas)).map Prod.fst :=
      streamed_erase _
    rw [herase] at hstreamed
    rw [hstreamed]
    exact hwithin.map Prod.fst

namespace DeltasWitness

def delta (text : String) : TextDelta Nat := ⟨some 0, lit text, fun _ => true⟩

/-- A key that is cut after its first letter. -/
def cutKey : List (TextDelta Nat) := [delta "use s", delta "k-abc now"]

/-- Text deltas do not go through `safeText`. -/
def noText : Text → Nat → Text := fun _ _ => []

end DeltasWitness

open DeltasWitness in
theorem cut_key_streams :
    credentials id (source cutKey) = [lit "sk-abc"] ∧
      streamed id id noText cutKey = lit "use sk-abc now" ∧
      ¬ Unseen id id noText cutKey := by
  have hcredentials : credentials id (source cutKey) = [lit "sk-abc"] := by
    decide
  have hstreamed : streamed id id noText cutKey = lit "use sk-abc now" := by
    simp only [streamed, cutKey, List.flatMap_cons, List.flatMap_nil,
      emitted_eq]
    decide
  refine ⟨hcredentials, hstreamed, fun h => ?_⟩
  have hsecret := h (lit "sk-abc") (hcredentials ▸ List.mem_singleton_self _)
  rw [hstreamed] at hsecret
  exact hsecret ⟨lit "use ", lit " now", by decide⟩

end AiTeam.EventSse
