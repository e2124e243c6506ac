/-
What the conversion keeps of the entries: where each one shows, in which order
and grouped with which.
-/
import Mathlib.Data.List.Nodup
import AiTeam.Chat.History

namespace AiTeam.Chat

open Gathering (Class members classes fold)
open Unicode (Text lit)

/-! ### Entries that count -/

section

variable {J F : Type}

def keep (kept : List (ConversationEntry J)) (entry : ConversationEntry J) :
    List (ConversationEntry J) :=
  if entry.ref ∈ kept.map ConversationEntry.ref then kept else kept ++ [entry]

/-- The first entry of each ref. -/
def distinct (entries : List (ConversationEntry J)) :
    List (ConversationEntry J) :=
  entries.foldl keep []

/-- The entries the conversion looks at. -/
def keptEntries (entries : List (ConversationEntry J)) :
    List (ConversationEntry J) :=
  distinct (entries.filter fun entry => entry.id != [])

theorem distinct_snoc (entries : List (ConversationEntry J))
    (entry : ConversationEntry J) :
    distinct (entries ++ [entry]) = keep (distinct entries) entry := by
  rw [distinct, List.foldl_append]
  rfl

theorem keptEntries_snoc (entries : List (ConversationEntry J))
    (entry : ConversationEntry J) :
    keptEntries (entries ++ [entry]) =
      if entry.id = [] then keptEntries entries
      else keep (keptEntries entries) entry := by
  rw [keptEntries, List.filter_append]
  by_cases hid : entry.id = []
  · have hnone : ([entry].filter fun entry => entry.id != []) = [] := by
      rw [List.filter_cons, hid]
      rfl
    rw [hnone, List.append_nil, if_pos hid, keptEntries]
  · have hone : ([entry].filter fun entry => entry.id != []) = [entry] := by
      apply List.filter_eq_self.mpr
      exact List.forall_mem_singleton.mpr (bne_iff_ne.mpr hid)
    rw [hone, distinct_snoc, if_neg hid, keptEntries]

theorem distinct_nodup (entries : List (ConversationEntry J)) :
    ((distinct entries).map ConversationEntry.ref).Nodup := by
  induction entries using List.reverseRecOn with
  | nil => exact List.nodup_nil
  | append_singleton entries entry ih =>
      rw [distinct_snoc, keep]
      split
      · exact ih
      · next hfresh =>
        rw [List.map_append]
        apply List.nodup_append.mpr
        refine ⟨ih, List.nodup_singleton _, fun ref href other hother => ?_⟩
        rw [List.map_singleton, List.mem_singleton] at hother
        rintro rfl
        exact hfresh (hother ▸ href)

theorem keptEntries_nodup (entries : List (ConversationEntry J)) :
    ((keptEntries entries).map ConversationEntry.ref).Nodup :=
  distinct_nodup _

variable (display : Display J F)

/-- The messages before they are grouped. -/
def converted (kept : List (ConversationEntry J)) : List (Message J F) :=
  kept.foldl (addEntry display) []

theorem converted_snoc (kept : List (ConversationEntry J))
    (entry : ConversationEntry J) :
    converted display (kept ++ [entry]) =
      addEntry display (converted display kept) entry := by
  rw [converted, List.foldl_append]
  rfl

theorem foldl_convertStep (entries : List (ConversationEntry J)) :
    entries.foldl (convertStep display) ([], []) =
      ((keptEntries entries).map ConversationEntry.ref,
        converted display (keptEntries entries)) := by
  induction entries using List.reverseRecOn with
  | nil => rfl
  | append_singleton entries entry ih =>
      rw [List.foldl_append, ih, List.foldl_cons, List.foldl_nil,
        keptEntries_snoc, convertStep]
      split
      · rfl
      · dsimp only
        rw [keep]
        split
        · rfl
        · rw [List.map_append, converted_snoc]
          rfl

theorem entriesToMessages_eq (entries : List (ConversationEntry J)) :
    entriesToMessages display entries =
      (classes workKey (converted display (keptEntries entries))).map
        (fold mergeWork) := by
  rw [entriesToMessages, foldl_convertStep, groupWorkMessages,
    Gathering.gather_eq]

/-! ### Repeated entries -/

theorem seen_mono (entries : List (ConversationEntry J))
    {state : List Text × List (Message J F)} {ref : Text}
    (h : ref ∈ state.1) :
    ref ∈ (entries.foldl (convertStep display) state).1 := by
  induction entries generalizing state with
  | nil => exact h
  | cons entry entries ih =>
      rw [List.foldl_cons]
      apply ih
      rw [convertStep]
      split
      · exact h
      · split
        · exact h
        · exact List.mem_append_left _ h

/-- An entry that comes again changes nothing. -/
theorem convertStep_again (before after : List (ConversationEntry J))
    (entry : ConversationEntry J) :
    convertStep display ((before ++ entry :: after).foldl
        (convertStep display) ([], [])) entry =
      (before ++ entry :: after).foldl (convertStep display) ([], []) := by
  rw [convertStep]
  by_cases hid : entry.id = []
  · rw [if_pos hid]
  · rw [if_neg hid]
    apply if_pos
    rw [List.foldl_append, List.foldl_cons]
    apply seen_mono
    rw [convertStep, if_neg hid]
    split
    · assumption
    · exact List.mem_append_right _ (List.mem_singleton_self _)

/-! ### Messages and their entries -/

/-- The message of an entry of its own, before anything is attached. -/
def said (entry : ConversationEntry J) : Option (Message J F) :=
  match entry.message with
  | none => none
  | some msg =>
      if msg.role = .toolResult then none
      else some (toMessage display entry msg)

variable {entry : ConversationEntry J} {kept : List (ConversationEntry J)}
  {target : Message J F} {p : ConversationEntry J × Message J F}
  {c : Class (ConversationEntry J × Message J F)}

theorem said_refs {base : Message J F} (h : said display entry = some base) :
    base.id = entry.ref ∧ base.entryRefs = [entry.ref] := by
  rw [said] at h
  split at h
  · exact nomatch h
  · split at h
    · exact nomatch h
    · rw [← Option.some.inj h]
      exact ⟨rfl, rfl⟩

/-- The calls a result of a tool can be attached to. -/
def calls (message : Message J F) : List Text :=
  toolIds (message.thinkingSteps.getD [])

/-- The results of tools in a message: their entries are behind its own. -/
structure Attached (kept : List (ConversationEntry J))
    (entry : ConversationEntry J) (refs : List Text) : Prop where
  results : ∀ ref ∈ refs, ∃ t ∈ kept, t.ref = ref ∧ said display t = none
  behind : ∀ ref ∈ refs,
    [entry.ref, ref].Sublist (kept.map ConversationEntry.ref)

/-- The message shows what the entry said, with the results attached. -/
structure Shows (kept : List (ConversationEntry J))
    (entry : ConversationEntry J) (message : Message J F) : Prop where
  speech : ∃ base, said display entry = some base ∧
    message.role = base.role ∧ message.workId = base.workId ∧
    message.senderEmployeeId = base.senderEmployeeId ∧
    message.content = base.content ∧ calls message = calls base
  refs : ∃ attached, message.entryRefs = entry.ref :: attached ∧
    Attached display kept entry attached

/-- Each message by the entry it is of, in the order of the entries. -/
def Tracks (kept : List (ConversationEntry J))
    (pairs : List (ConversationEntry J × Message J F)) : Prop :=
  pairs.map Prod.fst = kept.filter (fun entry => (said display entry).isSome) ∧
    pairs.map Prod.snd = converted display kept ∧
    ∀ pair ∈ pairs, Shows display kept pair.1 pair.2

variable {display}

theorem Attached.snoc {refs : List Text} (h : Attached display kept entry refs)
    (next : ConversationEntry J) :
    Attached display (kept ++ [next]) entry refs := by
  constructor
  · intro ref href
    obtain ⟨t, ht, hresult⟩ := h.results ref href
    exact ⟨t, List.mem_append_left _ ht, hresult⟩
  · intro ref href
    rw [List.map_append]
    exact (h.behind ref href).trans (List.sublist_append_left _ _)

theorem Shows.snoc {message : Message J F}
    (h : Shows display kept entry message) (next : ConversationEntry J) :
    Shows display (kept ++ [next]) entry message := by
  obtain ⟨attached, hrefs, hattached⟩ := h.refs
  exact ⟨h.speech, attached, hrefs, hattached.snoc next⟩

theorem updateLast_none {α : Type} {change : α → Option α} {items : List α} :
    updateLast change items = none ↔ ∀ a ∈ items, change a = none := by
  induction items with
  | nil => exact iff_of_true rfl fun a ha => nomatch ha
  | cons a rest ih =>
      rw [updateLast, List.forall_mem_cons, ← ih]
      cases updateLast change rest with
      | none => simp
      | some rest' => simp

theorem updateLast_some {α : Type} {change : α → Option α}
    {items items' : List α} (h : updateLast change items = some items') :
    ∃ before a a' after, items = before ++ a :: after ∧ change a = some a' ∧
      items' = before ++ a' :: after := by
  induction items generalizing items' with
  | nil => exact nomatch h
  | cons a rest ih =>
      rw [updateLast] at h
      split at h
      · next rest' hrest =>
        obtain ⟨before, b, b', after, rfl, hb, rfl⟩ := ih hrest
        exact ⟨a :: before, b, b', after, rfl, hb, (Option.some.inj h).symm⟩
      · obtain ⟨a', ha', rfl⟩ := Option.map_eq_some_iff.mp h
        exact ⟨[], a, a', rest, rfl, ha', rfl⟩

theorem toolId_withResult (msg : ConversationMessage J) (toolCallId : Text)
    (step : ThinkingStep J) :
    (stepWithResult display msg toolCallId step).toolId = step.toolId := by
  cases step with
  | reasoning text => rfl
  | tool tool =>
      rw [stepWithResult]
      split <;> rfl

theorem toolIds_withResult (msg : ConversationMessage J) (toolCallId : Text)
    (steps : List (ThinkingStep J)) :
    toolIds (steps.map (stepWithResult display msg toolCallId)) =
      toolIds steps := by
  rw [toolIds, List.filterMap_map, toolIds]
  congr 1
  funext step
  exact toolId_withResult msg toolCallId step

/-- The call of a result is in a message of its employee and its work. -/
def HasCall (entry : ConversationEntry J) (toolCallId : Text)
    (target : Message J F) : Prop :=
  target.senderEmployeeId = entry.sourceEmployeeId ∧
    target.workId = entry.workId ∧ toolCallId ∈ calls target

/-- What a message is once a result is attached to it. -/
structure Grown (entry : ConversationEntry J) (target target' : Message J F) :
    Prop where
  role : target'.role = target.role
  workId : target'.workId = target.workId
  sender : target'.senderEmployeeId = target.senderEmployeeId
  content : target'.content = target.content
  calls : calls target' = calls target
  refs : target'.entryRefs = target.entryRefs ++ [entry.ref]

theorem attachTo_eq_some {msg : ConversationMessage J} {toolCallId : Text}
    {target' : Message J F}
    (h : attachTo display entry msg toolCallId target = some target') :
    HasCall entry toolCallId target ∧ Grown entry target target' := by
  rw [attachTo] at h
  split at h
  · exact nomatch h
  · next hsame =>
    obtain ⟨hsender, hwork⟩ := not_or.mp hsame
    split at h
    · exact nomatch h
    · next steps hsteps =>
      split at h
      · next hcall =>
        obtain rfl := Option.some.inj h
        refine ⟨⟨not_not.mp hsender, not_not.mp hwork, ?_⟩, rfl, rfl, rfl, rfl,
          ?_, rfl⟩
        · rw [calls, hsteps]
          exact hcall
        · rw [calls, calls, hsteps]
          exact toolIds_withResult msg toolCallId steps
      · exact nomatch h

theorem attachTo_ne_none {msg : ConversationMessage J} {toolCallId : Text}
    (h : HasCall entry toolCallId target) :
    attachTo display entry msg toolCallId target ≠ none := by
  obtain ⟨hsender, hwork, hcall⟩ := h
  rw [attachTo, if_neg (not_or.mpr ⟨not_not.mpr hsender, not_not.mpr hwork⟩)]
  rw [calls] at hcall
  cases hsteps : target.thinkingSteps with
  | none =>
      rw [hsteps] at hcall
      exact nomatch hcall
  | some steps =>
      rw [hsteps] at hcall
      have hcall' : toolCallId ∈ toolIds steps := hcall
      dsimp only
      rw [if_pos hcall']
      exact Option.some_ne_none _

/-- A result of a tool whose call is there. -/
def Answers (messages : List (Message J F)) (entry : ConversationEntry J) :
    Prop :=
  ∃ msg toolCallId, entry.message = some msg ∧ msg.role = .toolResult ∧
    nonEmpty msg.toolCallId = some toolCallId ∧
    ∃ target ∈ messages, HasCall entry toolCallId target

/-- What an entry does: it says something, is attached, or is dropped. -/
theorem addEntry_cases (display : Display J F) (messages : List (Message J F))
    (entry : ConversationEntry J) :
    (∃ base, said display entry = some base ∧
      addEntry display messages entry = messages ++ [base]) ∨
    (said display entry = none ∧ ¬ Answers messages entry ∧
      addEntry display messages entry = messages) ∨
    (said display entry = none ∧ Answers messages entry ∧
      ∃ before target target' after, messages = before ++ target :: after ∧
        addEntry display messages entry = before ++ target' :: after ∧
        Grown entry target target') := by
  rw [addEntry, said]
  cases hmessage : entry.message with
  | none =>
      refine .inr (.inl ⟨rfl, ?_, rfl⟩)
      rintro ⟨msg, _, hmsg, -⟩
      rw [hmessage] at hmsg
      exact nomatch hmsg
  | some msg =>
      dsimp only
      by_cases hrole : msg.role = .toolResult
      · rw [if_pos hrole, if_pos hrole, attachToolResult]
        cases hcall : nonEmpty msg.toolCallId with
        | none =>
            refine .inr (.inl ⟨rfl, ?_, rfl⟩)
            rintro ⟨other, toolCallId, hother, -, hid, -⟩
            rw [hmessage] at hother
            rw [← Option.some.inj hother, hcall] at hid
            exact nomatch hid
        | some toolCallId =>
            dsimp only
            cases hupdate : updateLast (attachTo display entry msg toolCallId)
                messages with
            | none =>
                refine .inr (.inl ⟨rfl, ?_, rfl⟩)
                rintro ⟨other, id, hother, -, hid, target, hmem, htarget⟩
                rw [hmessage] at hother
                rw [← Option.some.inj hother, hcall] at hid
                rw [← Option.some.inj hid] at htarget
                exact attachTo_ne_none htarget
                  (updateLast_none.mp hupdate target hmem)
            | some messages' =>
                obtain ⟨before, target, target', after, rfl, hattach, rfl⟩ :=
                  updateLast_some hupdate
                obtain ⟨htarget, hgrown⟩ := attachTo_eq_some hattach
                exact .inr (.inr ⟨rfl, ⟨msg, toolCallId, hmessage, hrole, hcall,
                  target, List.mem_append_right _ List.mem_cons_self, htarget⟩,
                  before, target, target', after, rfl, rfl, hgrown⟩)
      · rw [if_neg hrole, if_neg hrole]
        exact .inl ⟨_, rfl, rfl⟩

/-! ### One entry more -/

theorem filter_said_snoc (kept : List (ConversationEntry J))
    (entry : ConversationEntry J) :
    (kept ++ [entry]).filter (fun e => (said display e).isSome) =
      kept.filter (fun e => (said display e).isSome) ++
        if (said display entry).isSome then [entry] else [] := by
  rw [List.filter_append, List.filter_cons, List.filter_nil]

theorem mem_kept_of_pair {pairs : List (ConversationEntry J × Message J F)}
    (h : Tracks display kept pairs) {pair : ConversationEntry J × Message J F}
    (hpair : pair ∈ pairs) : pair.1 ∈ kept := by
  have hmem := List.mem_map_of_mem (f := Prod.fst) hpair
  rw [h.1] at hmem
  exact (List.mem_filter.mp hmem).1

/-- The message grows by a result right behind all entries so far. -/
theorem Shows.grow {next : ConversationEntry J} {target' : Message J F}
    (h : Shows display kept entry target) (hentry : entry ∈ kept)
    (hnext : said display next = none) (hgrown : Grown next target target') :
    Shows display (kept ++ [next]) entry target' := by
  obtain ⟨base, hbase, hrole, hwork, hsender, hcontent, hcalls⟩ := h.speech
  obtain ⟨attached, hrefs, hattached⟩ := h.refs
  refine ⟨⟨base, hbase, hgrown.role.trans hrole, hgrown.workId.trans hwork,
    hgrown.sender.trans hsender, hgrown.content.trans hcontent,
    hgrown.calls.trans hcalls⟩, attached ++ [next.ref], ?_, ?_, ?_⟩
  · rw [hgrown.refs, hrefs, List.cons_append]
  · intro ref href
    rcases List.mem_append.mp href with href | href
    · exact (hattached.snoc next).results ref href
    · rw [List.mem_singleton.mp href]
      exact ⟨next, List.mem_append_right _ (List.mem_singleton_self next), rfl,
        hnext⟩
  · intro ref href
    rcases List.mem_append.mp href with href | href
    · exact (hattached.snoc next).behind ref href
    · rw [List.mem_singleton.mp href, List.map_append]
      have hown : [entry.ref].Sublist (kept.map ConversationEntry.ref) :=
        List.singleton_sublist.mpr (List.mem_map_of_mem hentry)
      exact hown.append (List.Sublist.refl [next.ref])

theorem exists_tracks (display : Display J F)
    (kept : List (ConversationEntry J)) : ∃ pairs, Tracks display kept pairs := by
  induction kept using List.reverseRecOn with
  | nil => exact ⟨[], rfl, rfl, fun pair hpair => nomatch hpair⟩
  | append_singleton kept entry ih =>
      obtain ⟨pairs, hpairs⟩ := ih
      have hgrown : ∀ pair ∈ pairs,
          Shows display (kept ++ [entry]) pair.1 pair.2 := fun pair hpair =>
        (hpairs.2.2 pair hpair).snoc entry
      rcases addEntry_cases display (converted display kept) entry with
        ⟨base, hbase, hadd⟩ | ⟨hnone, -, hadd⟩ |
        ⟨hnone, -, before, target, target', after, hsplit, hadd, htarget⟩
      · refine ⟨pairs ++ [(entry, base)], ?_, ?_, ?_⟩
        · rw [filter_said_snoc, hbase, List.map_append, hpairs.1]
          rfl
        · rw [converted_snoc, hadd, List.map_append, hpairs.2.1]
          rfl
        · intro pair hpair
          rcases List.mem_append.mp hpair with hpair | hpair
          · exact hgrown pair hpair
          · rw [List.mem_singleton.mp hpair]
            refine ⟨⟨base, hbase, rfl, rfl, rfl, rfl, rfl⟩, [],
              (said_refs display hbase).2, ?_, ?_⟩
            · exact fun ref href => nomatch href
            · exact fun ref href => nomatch href
      · refine ⟨pairs, ?_, ?_, hgrown⟩
        · rw [filter_said_snoc, hnone, hpairs.1]
          exact (List.append_nil _).symm
        · rw [converted_snoc, hadd, hpairs.2.1]
      · rw [← hpairs.2.1] at hsplit
        obtain ⟨first, last, rfl, rfl, hlast⟩ := List.map_eq_append_iff.mp hsplit
        obtain ⟨pair, rest, rfl, rfl, rfl⟩ := List.map_eq_cons_iff.mp hlast
        have hmem : pair ∈ first ++ pair :: rest :=
          List.mem_append_right _ List.mem_cons_self
        refine ⟨first ++ (pair.1, target') :: rest, ?_, ?_, ?_⟩
        · rw [filter_said_snoc, hnone, ← hpairs.1, List.map_append,
            List.map_append]
          exact (List.append_nil _).symm
        · rw [converted_snoc, hadd, List.map_append]
          rfl
        · intro other hother
          rcases List.mem_append.mp hother with hother | hother
          · exact hgrown other (List.mem_append_left _ hother)
          rcases List.mem_cons.mp hother with rfl | hother
          · exact (hpairs.2.2 pair hmem).grow (mem_kept_of_pair hpairs hmem)
              hnone htarget
          · exact hgrown other (List.mem_append_right _
              (List.mem_cons_of_mem _ hother))

/-! ### Every ref once -/

/-- The entry shows: it says something, or its call was said before it. -/
def Placed (display : Display J F) (before : List (ConversationEntry J))
    (entry : ConversationEntry J) : Prop :=
  (said display entry).isSome ∨
    Answers (before.filterMap (said display)) entry

/-- The calls are those of the entries, whatever is attached. -/
theorem answers_iff :
    Answers (converted display kept) entry ↔
      Answers (kept.filterMap (said display)) entry := by
  obtain ⟨pairs, hfirst, hsecond, hshows⟩ := exists_tracks display kept
  have hiff : ∀ toolCallId, (∃ target ∈ converted display kept,
      HasCall entry toolCallId target) ↔
      ∃ base ∈ kept.filterMap (said display),
        HasCall entry toolCallId base := by
    intro toolCallId
    rw [← hsecond]
    constructor
    · rintro ⟨target, htarget, hcall⟩
      obtain ⟨pair, hpair, rfl⟩ := List.mem_map.mp htarget
      obtain ⟨base, hbase, -, hwork, hsender, -, hcalls⟩ :=
        (hshows pair hpair).speech
      have hkept : pair.1 ∈ kept :=
        mem_kept_of_pair ⟨hfirst, hsecond, hshows⟩ hpair
      refine ⟨base, List.mem_filterMap.mpr ⟨pair.1, hkept, hbase⟩, ?_⟩
      rw [HasCall, ← hsender, ← hwork, ← hcalls]
      exact hcall
    · rintro ⟨base, hmem, hcall⟩
      obtain ⟨e, he, hbase⟩ := List.mem_filterMap.mp hmem
      have hsaid : e ∈ pairs.map Prod.fst := by
        rw [hfirst]
        exact List.mem_filter.mpr ⟨he, by rw [hbase]; rfl⟩
      obtain ⟨pair, hpair, rfl⟩ := List.mem_map.mp hsaid
      obtain ⟨other, hother, -, hwork, hsender, -, hcalls⟩ :=
        (hshows pair hpair).speech
      obtain rfl := Option.some.inj (hbase.symm.trans hother)
      refine ⟨pair.2, List.mem_map_of_mem hpair, ?_⟩
      rw [HasCall, hsender, hwork, hcalls]
      exact hcall
  constructor
  · rintro ⟨msg, toolCallId, hmsg, hrole, hid, htarget⟩
    exact ⟨msg, toolCallId, hmsg, hrole, hid, (hiff toolCallId).mp htarget⟩
  · rintro ⟨msg, toolCallId, hmsg, hrole, hid, htarget⟩
    exact ⟨msg, toolCallId, hmsg, hrole, hid, (hiff toolCallId).mpr htarget⟩

def allRefs (messages : List (Message J F)) : List Text :=
  messages.flatMap Message.entryRefs

/-- An entry that is placed brings its ref, and nothing else changes. -/
theorem allRefs_snoc (kept : List (ConversationEntry J))
    (entry : ConversationEntry J) :
    (Placed display kept entry ∧
      (allRefs (converted display (kept ++ [entry]))).Perm
        (allRefs (converted display kept) ++ [entry.ref])) ∨
    (¬ Placed display kept entry ∧
      allRefs (converted display (kept ++ [entry])) =
        allRefs (converted display kept)) := by
  rw [converted_snoc]
  rcases addEntry_cases display (converted display kept) entry with
    ⟨base, hbase, hadd⟩ | ⟨hnone, hanswers, hadd⟩ |
    ⟨hnone, hanswers, before, target, target', after, hsplit, hadd, hgrown⟩
  · rw [hadd, allRefs, List.flatMap_append, List.flatMap_singleton,
      (said_refs display hbase).2]
    exact .inl ⟨.inl (by rw [hbase]; rfl), List.Perm.refl _⟩
  · rw [hadd]
    refine .inr ⟨?_, rfl⟩
    rintro (hsome | hplaced)
    · rw [hnone] at hsome
      exact nomatch hsome
    · exact hanswers (answers_iff.mpr hplaced)
  · refine .inl ⟨.inr (answers_iff.mp hanswers), ?_⟩
    rw [hadd, hsplit, allRefs, allRefs, List.flatMap_append,
      List.flatMap_append, List.flatMap_cons, List.flatMap_cons, hgrown.refs,
      List.append_assoc, List.append_assoc, List.append_assoc]
    exact (List.perm_append_comm.append_left _).append_left _

theorem mem_allRefs_kept {ref : Text}
    (h : ref ∈ allRefs (converted display kept)) :
    ref ∈ kept.map ConversationEntry.ref := by
  induction kept using List.reverseRecOn with
  | nil => exact nomatch h
  | append_singleton kept entry ih =>
      rw [List.map_append]
      rcases @allRefs_snoc J F display kept entry with
        ⟨-, hperm⟩ | ⟨-, heq⟩
      · rcases List.mem_append.mp (hperm.mem_iff.mp h) with h | h
        · exact List.mem_append_left _ (ih h)
        · exact List.mem_append_right _ h
      · rw [heq] at h
        exact List.mem_append_left _ (ih h)

theorem allRefs_nodup (h : (kept.map ConversationEntry.ref).Nodup) :
    (allRefs (converted display kept)).Nodup := by
  induction kept using List.reverseRecOn with
  | nil => exact List.nodup_nil
  | append_singleton kept entry ih =>
      rw [List.map_append] at h
      obtain ⟨hkept, -, hapart⟩ := List.nodup_append.mp h
      rcases @allRefs_snoc J F display kept entry with
        ⟨-, hperm⟩ | ⟨-, heq⟩
      · apply hperm.nodup_iff.mpr
        apply List.nodup_append.mpr
        refine ⟨ih hkept, List.nodup_singleton _, fun ref href other hother => ?_⟩
        exact hapart ref (mem_allRefs_kept href) other hother
      · rw [heq]
        exact ih hkept

/-- A ref shows just where an entry of it is placed. -/
theorem mem_allRefs_iff (kept : List (ConversationEntry J)) (ref : Text) :
    ref ∈ allRefs (converted display kept) ↔
      ∃ before entry after, kept = before ++ entry :: after ∧
        entry.ref = ref ∧ Placed display before entry := by
  induction kept using List.reverseRecOn with
  | nil =>
      apply iff_of_false (fun h => nomatch h)
      rintro ⟨before, entry, after, h, -⟩
      exact List.append_ne_nil_of_right_ne_nil before
        (List.cons_ne_nil entry after) h.symm
  | append_singleton kept last ih =>
      have hsplit : (∃ before entry after, kept ++ [last] =
          before ++ entry :: after ∧ entry.ref = ref ∧
          Placed display before entry) ↔
          (∃ before entry after, kept = before ++ entry :: after ∧
            entry.ref = ref ∧ Placed display before entry) ∨
          (last.ref = ref ∧ Placed display kept last) := by
        constructor
        · rintro ⟨before, entry, after, heq, href, hplaced⟩
          induction after using List.reverseRecOn with
          | nil =>
              obtain ⟨rfl, hlast⟩ := List.append_inj' heq rfl
              obtain rfl := (List.cons.inj hlast).1
              exact .inr ⟨href, hplaced⟩
          | append_singleton after other _ =>
              rw [← List.cons_append, ← List.append_assoc] at heq
              obtain ⟨rfl, -⟩ := List.append_inj' heq rfl
              exact .inl ⟨before, entry, after, rfl, href, hplaced⟩
        · rintro (⟨before, entry, after, rfl, href, hplaced⟩ | ⟨href, hplaced⟩)
          · exact ⟨before, entry, after ++ [last], List.append_assoc .., href,
              hplaced⟩
          · exact ⟨kept, last, [], rfl, href, hplaced⟩
      rw [hsplit, ← ih]
      rcases @allRefs_snoc J F display kept last with
        ⟨hplaced, hperm⟩ | ⟨hplaced, heq⟩
      · rw [hperm.mem_iff, List.mem_append, List.mem_singleton, eq_comm,
          and_iff_left hplaced]
      · rw [heq]
        exact (or_iff_left fun h => hplaced h.2).symm

/-! ### Grouped messages -/

theorem fold_mergeWork (c : Class (Message J F)) :
    (fold mergeWork c).id = c.1.id ∧
      (fold mergeWork c).entryRefs = allRefs (members c) ∧
      (fold mergeWork c).content =
        joined ((members c).map Message.content) := by
  obtain ⟨first, others⟩ := c
  induction others using List.reverseRecOn with
  | nil =>
      refine ⟨rfl, (List.append_nil _).symm, ?_⟩
      exact (joined_singleton _).symm
  | append_singleton others last ih =>
      obtain ⟨hid, hrefs, hcontent⟩ := ih
      have hsnoc := Gathering.fold_snoc mergeWork (first, others) last
      have hmembers : members (first, others ++ [last]) =
          members (first, others) ++ [last] := rfl
      dsimp only at hsnoc
      rw [hsnoc, hmembers]
      refine ⟨hid, ?_, ?_⟩
      · rw [allRefs, List.flatMap_append, List.flatMap_singleton]
        show (fold mergeWork (first, others)).entryRefs ++ _ = _
        rw [hrefs, allRefs]
      · rw [List.map_append, List.map_singleton, joined_snoc, ← hcontent]
        rfl

/-- Which of the lists holds what is in them once. -/
theorem filter_mem_length {α β : Type} {items : List α} {f : α → List β}
    (h : (items.flatMap f).Nodup) (b : β) [∀ a, Decidable (b ∈ f a)] :
    (items.filter fun a => decide (b ∈ f a)).length = 1 ↔
      b ∈ items.flatMap f := by
  induction items with
  | nil => exact iff_of_false Nat.zero_ne_one (fun h => nomatch h)
  | cons a items ih =>
      rw [List.flatMap_cons] at h ⊢
      obtain ⟨-, hrest, hapart⟩ := List.nodup_append.mp h
      rw [List.mem_append]
      by_cases hb : b ∈ f a
      · have hnone : (items.filter fun a => decide (b ∈ f a)) = [] := by
          apply List.filter_eq_nil_iff.mpr
          intro other hother hmem
          exact hapart b hb b (List.mem_flatMap.mpr
            ⟨other, hother, of_decide_eq_true hmem⟩) rfl
        rw [List.filter_cons, if_pos (decide_eq_true hb), hnone]
        exact iff_of_true rfl (.inl hb)
      · rw [List.filter_cons, if_neg fun h => hb (of_decide_eq_true h),
          ih hrest, or_iff_right hb]

theorem filterMap_said (f : ConversationEntry J → Option (Message J F))
    (kept : List (ConversationEntry J)) :
    (kept.filter fun entry => (f entry).isSome).filterMap f =
      kept.filterMap f := by
  rw [List.filterMap_filter]
  apply List.filterMap_congr
  intro entry _
  cases f entry <;> rfl

/-- The work of a message with its entry. -/
def pairKey (pair : ConversationEntry J × Message J F) : Option (Text × Text) :=
  workKey pair.2

/-- The message of a class. -/
def merged (c : Class (ConversationEntry J × Message J F)) : Message J F :=
  fold mergeWork (Gathering.mapClass Prod.snd c)

theorem merged_spec (c : Class (ConversationEntry J × Message J F)) :
    (merged c).entryRefs = (members c).flatMap (fun pair => pair.2.entryRefs) ∧
      (merged c).content =
        joined ((members c).map fun pair => pair.2.content) := by
  obtain ⟨-, hrefs, hcontent⟩ := fold_mergeWork (Gathering.mapClass Prod.snd c)
  rw [Gathering.members_mapClass] at hrefs hcontent
  refine ⟨hrefs.trans ?_, hcontent.trans ?_⟩
  · exact List.flatMap_map ..
  · rw [List.map_map]
    rfl

section

variable {kept : List (ConversationEntry J)}
  {pairs : List (ConversationEntry J × Message J F)}

theorem grouped_eq (h : Tracks display kept pairs) :
    (classes workKey (converted display kept)).map (fold mergeWork) =
      (classes pairKey pairs).map merged := by
  rw [← h.2.1, Gathering.classes_map, List.map_map]
  rfl

theorem ref_inj (hnodup : (kept.map ConversationEntry.ref).Nodup)
    {a b : ConversationEntry J} (ha : a ∈ kept) (hb : b ∈ kept)
    (heq : a.ref = b.ref) : a = b :=
  List.inj_on_of_nodup_map hnodup ha hb heq

theorem pairs_nodup (h : Tracks display kept pairs)
    (hnodup : (kept.map ConversationEntry.ref).Nodup) :
    (pairs.map fun pair => pair.1.ref).Nodup := by
  have hmap : (pairs.map fun pair => pair.1.ref) =
      (pairs.map Prod.fst).map ConversationEntry.ref := by
    rw [List.map_map]
    rfl
  rw [hmap, h.1]
  exact hnodup.sublist ((List.filter_sublist ..).map _)

theorem pair_inj (h : Tracks display kept pairs)
    (hnodup : (kept.map ConversationEntry.ref).Nodup)
    {q : ConversationEntry J × Message J F} (hp : p ∈ pairs) (hq : q ∈ pairs)
    (heq : p.1.ref = q.1.ref) : p = q :=
  List.inj_on_of_nodup_map (pairs_nodup h hnodup) hp hq heq

/-- What says something is never attached. -/
theorem ref_mem_pair (h : Tracks display kept pairs)
    (hnodup : (kept.map ConversationEntry.ref).Nodup)
    {q : ConversationEntry J × Message J F} (hp : p ∈ pairs) (hq : q ∈ pairs) :
    p.1.ref ∈ q.2.entryRefs ↔ p = q := by
  obtain ⟨attached, hrefs, hattached⟩ := (h.2.2 q hq).refs
  rw [hrefs, List.mem_cons]
  constructor
  · rintro (heq | hmem)
    · exact pair_inj h hnodup hp hq heq
    · obtain ⟨t, ht, href, hnone⟩ := hattached.results _ hmem
      obtain ⟨base, hbase, -⟩ := (h.2.2 p hp).speech
      rw [ref_inj hnodup ht (mem_kept_of_pair h hp) href, hbase] at hnone
      exact nomatch hnone
  · rintro rfl
    exact .inl rfl

theorem member_mem (hc : c ∈ classes pairKey pairs) (hp : p ∈ members c) :
    p ∈ pairs :=
  (Gathering.classes_perm pairKey pairs).mem_iff.mp
    (List.mem_flatMap.mpr ⟨c, hc, hp⟩)

theorem ref_mem_merged (h : Tracks display kept pairs)
    (hnodup : (kept.map ConversationEntry.ref).Nodup)
    (hc : c ∈ classes pairKey pairs) (hp : p ∈ pairs) :
    p.1.ref ∈ (merged c).entryRefs ↔ p ∈ members c := by
  rw [(merged_spec c).1, List.mem_flatMap]
  constructor
  · rintro ⟨q, hq, hmem⟩
    rwa [(ref_mem_pair h hnodup hp (member_mem hc hq)).mp hmem]
  · intro hmem
    exact ⟨p, hmem, (ref_mem_pair h hnodup hp hp).mpr rfl⟩

/-- The members of a class, among the others. -/
theorem filter_members (h : Tracks display kept pairs)
    (hnodup : (kept.map ConversationEntry.ref).Nodup)
    (hc : c ∈ classes pairKey pairs) :
    (pairs.filter fun p => decide (p.1.ref ∈ (merged c).entryRefs)) =
      members c := by
  have hrefs : ∀ p ∈ pairs, (decide (p.1.ref ∈ (merged c).entryRefs) = true ↔
      p ∈ members c) := fun p hp => by
    rw [decide_eq_true_iff, ref_mem_merged h hnodup hc hp]
  rcases Gathering.classes_whole pairKey pairs c hc with
    ⟨-, halone⟩ | ⟨k, -, hmembers⟩
  · have hsub : (members c).Sublist
        (pairs.filter fun p => decide (p.1.ref ∈ (merged c).entryRefs)) := by
      rw [members, halone]
      have hfirst : c.1 ∈ members c := List.mem_cons_self
      have hpair := member_mem hc hfirst
      exact List.singleton_sublist.mpr
        (List.mem_filter.mpr ⟨hpair, (hrefs c.1 hpair).mpr hfirst⟩)
    have hall : (pairs.filter fun p =>
        decide (p.1.ref ∈ (merged c).entryRefs)) ⊆ members c := fun p hp =>
      (hrefs p (List.mem_filter.mp hp).1).mp (List.mem_filter.mp hp).2
    have hpairs : pairs.Nodup := (pairs_nodup h hnodup).of_map _
    have hle := (List.subperm_of_subset (hpairs.filter _) hall).length_le
    exact (hsub.eq_of_length_le hle).symm
  · rw [hmembers]
    apply List.filter_congr
    intro p hp
    rw [Bool.eq_iff_iff, hrefs p hp, hmembers, List.mem_filter, and_iff_right hp]

end

end

end AiTeam.Chat
