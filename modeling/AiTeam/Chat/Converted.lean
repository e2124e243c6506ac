/-
What the history shows of the entries, and when it shows all of them.
-/
import AiTeam.Chat.Kept

namespace AiTeam.Chat

open Gathering (Class members classes)
open Unicode (Text lit)

section

variable {J F : Type} (display : Display J F)
  (entries : List (ConversationEntry J))

/-- Each distinct entry with a message is in exactly one of the result. -/
def EveryEntryOnce : Prop :=
  ∀ entry ∈ distinct entries, entry.message.isSome = true →
    ((entriesToMessages display entries).filter fun message =>
      decide (entry.ref ∈ message.entryRefs)).length = 1

/-- The entries of a message, in their order. -/
def entriesOf (message : Message J F) : List (ConversationEntry J) :=
  (keptEntries entries).filter fun entry =>
    decide (entry.ref ∈ message.entryRefs)

/-- The content is what the entries said, in paragraphs. -/
def ContentsKept : Prop :=
  ∀ message ∈ entriesToMessages display entries,
    message.content = joined (((entriesOf entries message).filterMap
      (said display)).map Message.content)

def Together (a b : ConversationEntry J) : Prop :=
  ∃ message ∈ entriesToMessages display entries,
    a.ref ∈ message.entryRefs ∧ b.ref ∈ message.entryRefs

/-- Two entries that say something are together just when both are replies of
one sender for one work. -/
def GroupedExactly : Prop :=
  ∀ a ∈ keptEntries entries, ∀ b ∈ keptEntries entries, a ≠ b →
    ∀ x y, said display a = some x → said display b = some y →
      (Together display entries a b ↔
        x.role = .assistant ∧ y.role = .assistant ∧
          (∃ work, work ≠ [] ∧ x.workId = some work ∧ y.workId = some work) ∧
          x.senderEmployeeId = y.senderEmployeeId)

/-- The messages stand in the order of their first entries. -/
def InOrder : Prop :=
  ∃ first, List.Sublist first (keptEntries entries) ∧
    List.Forall₂ (fun message entry => (entriesOf entries message).head? =
      some entry) (entriesToMessages display entries) first

/-- An entry that comes again changes nothing. -/
def RepeatsIgnored : Prop :=
  ∀ before entry after rest, entries = before ++ entry :: after ++ rest →
    entriesToMessages display (before ++ entry :: after ++ entry :: rest) =
      entriesToMessages display entries

structure KeepsEveryEntry : Prop where
  every : EveryEntryOnce display entries
  contents : ContentsKept display entries
  grouped : GroupedExactly display entries
  order : InOrder display entries
  repeats : RepeatsIgnored display entries

/-- Each distinct entry with a message says something, or is the result of a
call that was said before it. -/
def AllPlaced : Prop :=
  ∀ entry ∈ distinct entries, entry.message.isSome = true →
    ∃ before kept after, keptEntries entries = before ++ kept :: after ∧
      kept.ref = entry.ref ∧ Placed display before kept

/-- No work has replies without a sender and replies of the empty one. -/
def SendersApart : Prop :=
  ∀ a ∈ keptEntries entries, ∀ b ∈ keptEntries entries,
    ∀ x y, said display a = some x → said display b = some y →
      x.role = .assistant → y.role = .assistant →
      ∀ work, work ≠ [] → x.workId = some work → y.workId = some work →
        x.senderEmployeeId = none → y.senderEmployeeId ≠ some []

variable {display entries}

theorem everyEntryOnce_iff :
    EveryEntryOnce display entries ↔ AllPlaced display entries := by
  have hnodup := keptEntries_nodup entries
  obtain ⟨pairs, hpairs⟩ := exists_tracks display (keptEntries entries)
  have hperm : (allRefs (entriesToMessages display entries)).Perm
      (allRefs (converted display (keptEntries entries))) := by
    rw [entriesToMessages_eq, grouped_eq hpairs, ← hpairs.2.1, allRefs,
      allRefs, List.flatMap_map, List.flatMap_map]
    have hmerged : (classes pairKey pairs).flatMap
        (fun c => (merged c).entryRefs) =
        ((classes pairKey pairs).flatMap members).flatMap
          fun pair => pair.2.entryRefs := by
      rw [List.flatMap_assoc]
      exact List.flatMap_congr fun c _ => (merged_spec c).1
    rw [hmerged]
    exact (Gathering.classes_perm pairKey pairs).flatMap_right _
  have hrefs := hperm.nodup_iff.mpr (allRefs_nodup hnodup)
  apply forall₂_congr
  intro entry _
  apply imp_congr_right
  intro _
  rw [filter_mem_length hrefs]
  exact hperm.mem_iff.trans (mem_allRefs_iff _ _)

variable {pairs : List (ConversationEntry J × Message J F)}

/-- The entries of a grouped message that say something are its members. -/
theorem said_entriesOf (hpairs : Tracks display (keptEntries entries) pairs)
    {c : Class (ConversationEntry J × Message J F)}
    (hc : c ∈ classes pairKey pairs) :
    ((entriesOf entries (merged c)).filter fun entry =>
      (said display entry).isSome) = (members c).map Prod.fst := by
  have hnodup := keptEntries_nodup entries
  rw [← filter_members hpairs hnodup hc, entriesOf, List.filter_filter]
  have hcomm : (keptEntries entries).filter (fun entry =>
      (said display entry).isSome &&
        decide (entry.ref ∈ (merged c).entryRefs)) =
      ((keptEntries entries).filter fun entry =>
        (said display entry).isSome).filter fun entry =>
          decide (entry.ref ∈ (merged c).entryRefs) := by
    rw [List.filter_filter]
    exact List.filter_congr fun entry _ => Bool.and_comm ..
  rw [hcomm, ← hpairs.1, List.filter_map]
  rfl

theorem contentsKept : ContentsKept display entries := by
  obtain ⟨pairs, hpairs⟩ := exists_tracks display (keptEntries entries)
  intro message hmessage
  rw [entriesToMessages_eq, grouped_eq hpairs] at hmessage
  obtain ⟨c, hc, rfl⟩ := List.mem_map.mp hmessage
  rw [← filterMap_said (said display), said_entriesOf hpairs hc,
    (merged_spec c).2, List.filterMap_map, List.map_filterMap]
  congr 1
  rw [← List.filterMap_eq_map]
  apply List.filterMap_congr
  intro pair hpair
  obtain ⟨base, hbase, -, -, -, hcontent, -⟩ :=
    (hpairs.2.2 pair (member_mem hc hpair)).speech
  rw [Function.comp_apply, Function.comp_apply, hbase, hcontent]
  rfl

/-! ### Replies together -/

theorem exists_pair {kept : List (ConversationEntry J)}
    (h : Tracks display kept pairs) {entry : ConversationEntry J}
    (hentry : entry ∈ kept) {base : Message J F}
    (hbase : said display entry = some base) :
    ∃ pair ∈ pairs, pair.1 = entry ∧ pairKey pair = workKey base := by
  have hmem : entry ∈ pairs.map Prod.fst := by
    rw [h.1]
    exact List.mem_filter.mpr ⟨hentry, by rw [hbase]; rfl⟩
  obtain ⟨pair, hpair, rfl⟩ := List.mem_map.mp hmem
  obtain ⟨other, hother, hrole, hwork, hsender, -⟩ := (h.2.2 pair hpair).speech
  obtain rfl := Option.some.inj (hbase.symm.trans hother)
  refine ⟨pair, hpair, rfl, ?_⟩
  rw [pairKey, workKey, hrole, hwork, hsender, workKey]

theorem nonEmpty_eq_some {text : Option Text} {work : Text} :
    nonEmpty text = some work ↔ text = some work ∧ work ≠ [] := by
  rw [nonEmpty, Option.filter_eq_some_iff]
  exact and_congr_right' bne_iff_ne

theorem workKey_eq_some {message : Message J F} {key : Text × Text} :
    workKey message = some key ↔ message.role = .assistant ∧ key.2 ≠ [] ∧
      message.workId = some key.2 ∧
      message.senderEmployeeId.getD [] = key.1 := by
  obtain ⟨sender, work⟩ := key
  rw [workKey]
  by_cases hrole : message.role = .assistant
  · rw [if_pos hrole, Option.map_eq_some_iff, and_iff_right hrole]
    constructor
    · rintro ⟨other, hother, heq⟩
      obtain ⟨rfl, rfl⟩ := Prod.mk.inj heq
      obtain ⟨hwork, hne⟩ := nonEmpty_eq_some.mp hother
      exact ⟨hne, hwork, rfl⟩
    · rintro ⟨hne, hwork, hsender⟩
      exact ⟨work, nonEmpty_eq_some.mpr ⟨hwork, hne⟩, by rw [hsender]⟩
  · rw [if_neg hrole]
    exact iff_of_false (fun h => nomatch h) fun h => hrole h.1

/-- Together are replies for one work whose senders are one key. -/
theorem together_iff {a b : ConversationEntry J}
    (ha : a ∈ keptEntries entries) (hb : b ∈ keptEntries entries) (hne : a ≠ b)
    {x y : Message J F} (hx : said display a = some x)
    (hy : said display b = some y) :
    Together display entries a b ↔
      x.role = .assistant ∧ y.role = .assistant ∧
        (∃ work, work ≠ [] ∧ x.workId = some work ∧ y.workId = some work) ∧
        x.senderEmployeeId.getD [] = y.senderEmployeeId.getD [] := by
  have hnodup := keptEntries_nodup entries
  obtain ⟨pairs, hpairs⟩ := exists_tracks display (keptEntries entries)
  obtain ⟨p, hp, rfl, hpkey⟩ := exists_pair hpairs ha hx
  obtain ⟨q, hq, rfl, hqkey⟩ := exists_pair hpairs hb hy
  have hpq : p ≠ q := fun h => hne (by rw [h])
  have hclasses : Together display entries p.1 q.1 ↔
      ∃ c ∈ classes pairKey pairs, p ∈ members c ∧ q ∈ members c := by
    rw [Together, entriesToMessages_eq, grouped_eq hpairs]
    constructor
    · rintro ⟨message, hmessage, hpm, hqm⟩
      obtain ⟨c, hc, rfl⟩ := List.mem_map.mp hmessage
      exact ⟨c, hc, (ref_mem_merged hpairs hnodup hc hp).mp hpm,
        (ref_mem_merged hpairs hnodup hc hq).mp hqm⟩
    · rintro ⟨c, hc, hpc, hqc⟩
      exact ⟨merged c, List.mem_map_of_mem hc,
        (ref_mem_merged hpairs hnodup hc hp).mpr hpc,
        (ref_mem_merged hpairs hnodup hc hq).mpr hqc⟩
  rw [hclasses, Gathering.together_iff hp hq hpq, hpkey, hqkey]
  simp only [workKey_eq_some]
  constructor
  · rintro ⟨key, ⟨hxrole, hwork, hxwork, hxsender⟩, hyrole, -, hywork, hysender⟩
    exact ⟨hxrole, hyrole, ⟨key.2, hwork, hxwork, hywork⟩,
      hxsender.trans hysender.symm⟩
  · rintro ⟨hxrole, hyrole, ⟨work, hwork, hxwork, hywork⟩, hsender⟩
    exact ⟨(x.senderEmployeeId.getD [], work), ⟨hxrole, hwork, hxwork, rfl⟩,
      hyrole, hwork, hywork, hsender.symm⟩

theorem getD_eq_iff {a b : Option Text} :
    a.getD [] = b.getD [] ↔
      a = b ∨ (a = none ∧ b = some []) ∨ (a = some [] ∧ b = none) := by
  cases a <;> cases b <;> simp [eq_comm]

theorem groupedExactly_iff :
    GroupedExactly display entries ↔ SendersApart display entries := by
  constructor
  · intro hgrouped a ha b hb x y hx hy hxrole hyrole work hwork hxwork hywork
      hxsender hysender
    have hne : a ≠ b := by
      rintro rfl
      rw [hx] at hy
      rw [Option.some.inj hy, hysender] at hxsender
      exact nomatch hxsender
    have htogether := (together_iff ha hb hne hx hy).mpr ⟨hxrole, hyrole,
      ⟨work, hwork, hxwork, hywork⟩, by rw [hxsender, hysender]; rfl⟩
    have hsame := ((hgrouped a ha b hb hne x y hx hy).mp htogether).2.2.2
    rw [hxsender, hysender] at hsame
    exact nomatch hsame
  · intro hapart a ha b hb hne x y hx hy
    rw [together_iff ha hb hne hx hy]
    constructor
    · rintro ⟨hxrole, hyrole, ⟨work, hwork, hxwork, hywork⟩, hsender⟩
      refine ⟨hxrole, hyrole, ⟨work, hwork, hxwork, hywork⟩, ?_⟩
      rcases getD_eq_iff.mp hsender with hsame | ⟨hnone, hempty⟩ |
        ⟨hempty, hnone⟩
      · exact hsame
      · exact absurd hempty (hapart a ha b hb x y hx hy hxrole hyrole work hwork
          hxwork hywork hnone)
      · exact absurd hempty (hapart b hb a ha y x hy hx hyrole hxrole work hwork
          hywork hxwork hnone)
    · rintro ⟨hxrole, hyrole, hwork, hsender⟩
      exact ⟨hxrole, hyrole, hwork, by rw [hsender]⟩

/-! ### Order -/

theorem idxOf_lt_of_sublist {refs : List Text} (hnodup : refs.Nodup)
    {a b : Text} (h : [a, b].Sublist refs) :
    refs.idxOf a < refs.idxOf b := by
  induction refs with
  | nil => exact nomatch h
  | cons ref refs ih =>
      obtain ⟨hfresh, hrest⟩ := List.nodup_cons.mp hnodup
      cases h with
      | cons _ h =>
          have ha : ref ≠ a := fun heq =>
            hfresh (heq ▸ h.subset List.mem_cons_self)
          have hb : ref ≠ b := fun heq => hfresh
            (heq ▸ h.subset (List.mem_cons_of_mem _ List.mem_cons_self))
          rw [List.idxOf_cons_ne _ ha, List.idxOf_cons_ne _ hb]
          exact Nat.succ_lt_succ (ih hrest h)
      | cons_cons _ h =>
          have hb : a ≠ b := fun heq =>
            hfresh (heq ▸ List.singleton_sublist.mp h)
          rw [List.idxOf_cons_self, List.idxOf_cons_ne _ hb]
          exact Nat.succ_pos _

/-- The first member of a class is the first of its entries. -/
theorem head?_entriesOf (hpairs : Tracks display (keptEntries entries) pairs)
    {c : Class (ConversationEntry J × Message J F)}
    (hc : c ∈ classes pairKey pairs) :
    (entriesOf entries (merged c)).head? = some c.1.1 := by
  have hnodup := keptEntries_nodup entries
  have hmember : ∀ q ∈ members c, q ∈ pairs := fun q hq => member_mem hc hq
  have hfirst : c.1 ∈ members c := List.mem_cons_self
  have hmem := mem_kept_of_pair hpairs (hmember c.1 hfirst)
  have hle : ∀ ref ∈ (merged c).entryRefs,
      ((keptEntries entries).map ConversationEntry.ref).idxOf c.1.1.ref ≤
        ((keptEntries entries).map ConversationEntry.ref).idxOf ref := by
    intro ref href
    rw [(merged_spec c).1, List.mem_flatMap] at href
    obtain ⟨q, hq, hqref⟩ := href
    have hown : ((keptEntries entries).map ConversationEntry.ref).idxOf
        c.1.1.ref ≤
        ((keptEntries entries).map ConversationEntry.ref).idxOf q.1.ref := by
      rcases List.mem_cons.mp hq with rfl | hq
      · exact Nat.le_refl _
      · have hpair : [c.1, q].Sublist (members c) :=
          (List.singleton_sublist.mpr hq).cons_cons c.1
        have hsub := ((hpair.trans (Gathering.members_sublist hc)).map
          Prod.fst).map ConversationEntry.ref
        rw [hpairs.1] at hsub
        exact Nat.le_of_lt (idxOf_lt_of_sublist hnodup
          (hsub.trans ((List.filter_sublist ..).map _)))
    obtain ⟨attached, hrefs, hattached⟩ := (hpairs.2.2 q (hmember q hq)).refs
    rw [hrefs] at hqref
    rcases List.mem_cons.mp hqref with rfl | hqref
    · exact hown
    · exact Nat.le_trans hown (Nat.le_of_lt
        (idxOf_lt_of_sublist hnodup (hattached.behind ref hqref)))
  obtain ⟨before, after, hsplit⟩ := List.append_of_mem hmem
  rw [entriesOf, List.head?_filter, List.find?_eq_some_iff_append]
  refine ⟨decide_eq_true ?_, before, after, hsplit, fun entry hentry => ?_⟩
  · exact (ref_mem_merged hpairs hnodup hc (hmember c.1 hfirst)).mpr hfirst
  · rw [Bool.not_eq_true', decide_eq_false_iff_not]
    intro href
    have hsub : [entry.ref, c.1.1.ref].Sublist
        ((keptEntries entries).map ConversationEntry.ref) := by
      rw [hsplit, List.map_append, List.map_cons]
      exact (List.singleton_sublist.mpr (List.mem_map_of_mem hentry)).append
        (List.singleton_sublist.mpr List.mem_cons_self)
    exact absurd (idxOf_lt_of_sublist hnodup hsub)
      (Nat.not_lt.mpr (hle entry.ref href))

theorem inOrder : InOrder display entries := by
  obtain ⟨pairs, hpairs⟩ := exists_tracks display (keptEntries entries)
  have hsub := (Gathering.classes_first pairKey pairs).map Prod.fst
  rw [hpairs.1] at hsub
  refine ⟨_, hsub.trans (List.filter_sublist ..), ?_⟩
  rw [entriesToMessages_eq, grouped_eq hpairs, List.map_map]
  apply List.forall₂_map_left_iff.mpr
  apply List.forall₂_map_right_iff.mpr
  apply List.forall₂_same.mpr
  exact fun c hc => head?_entriesOf hpairs hc

theorem repeatsIgnored : RepeatsIgnored display entries := by
  rintro before entry after rest rfl
  rw [entriesToMessages, entriesToMessages, List.foldl_append,
    List.foldl_cons, convertStep_again, ← List.foldl_append]

/-- The history keeps every entry just where each is placed, and senders are
told apart. -/
theorem entriesToMessages_keeps :
    KeepsEveryEntry display entries ↔
      AllPlaced display entries ∧ SendersApart display entries := by
  constructor
  · intro h
    exact ⟨everyEntryOnce_iff.mp h.every, groupedExactly_iff.mp h.grouped⟩
  · rintro ⟨hplaced, hapart⟩
    exact ⟨everyEntryOnce_iff.mpr hplaced, contentsKept,
      groupedExactly_iff.mpr hapart, inOrder, repeatsIgnored⟩

end

namespace OrphanWitness

def display : Display Unit Unit where
  isRecord _ := false
  splitLocalContext text := (text, none)
  assistantFailure _ := none
  replyPreview text := text
  normalizeTimestamp _ := ([], 0)
  resolveEmployeeName _ := none

def answer : ConversationMessage Unit where
  role := .toolResult
  content := some (.string (lit "ok"))
  toolCallId := some (lit "call")

/-- A result whose call is nowhere. -/
def result : ConversationEntry Unit where
  id := lit "e1:r1"
  message := some answer
  sourceEmployeeId := some (lit "e1")

end OrphanWitness

open OrphanWitness in
/-- A tool result without its call is lost. -/
theorem entriesToMessages_orphan :
    ¬ ∀ entries : List (ConversationEntry Unit),
      KeepsEveryEntry display entries := by
  intro h
  have hone := (h [result]).every result (List.mem_singleton_self result) rfl
  have hzero : ((entriesToMessages display [result]).filter fun message =>
      decide (result.ref ∈ message.entryRefs)).length = 0 := rfl
  rw [hzero] at hone
  exact nomatch hone

end AiTeam.Chat
