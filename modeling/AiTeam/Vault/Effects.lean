/-
The effect of each operation on the records of the login vault.
-/
import AiTeam.Vault.Identity

namespace AiTeam.Vault

variable {Key Envelope : Type} {platform : Platform Key Envelope}
  {state : State Key Envelope}

/-- Removing the entry of an optional key. -/
theorem discard_active {V : Type} (active : Option String)
    (entries : List (String × V)) :
    (match active with
      | some key => discard key entries
      | none => entries) =
      entries.filter fun entry => active != some entry.1 := by
  cases active with
  | none => exact (List.filter_eq_self.mpr fun _ _ => rfl).symm
  | some key =>
      refine List.filter_congr fun entry _ => ?_
      by_cases heq : entry.1 = key
      · simp [heq]
      · simp [heq, Ne.symm heq]

section

variable (h : WellFormed platform state)
include h

theorem sessionWrite_effect (draw : Draw Key) (payload : String) :
    ∃ keep added, Effect platform state
      (sessionWrite platform state draw payload).1 .session
      (.write .session payload) keep added := by
  have hrecords : (state.session.getD ⟨none, none, []⟩).sessions =
      records state .session := by
    cases hs : state.session <;> simp [records, hs]
  have hactive : (state.session.getD ⟨none, none, []⟩).activeKey =
      activeKey state .session := by
    cases hs : state.session <;> simp [activeKey, hs]
  unfold sessionWrite
  split
  · next hempty =>
      refine ⟨fun entry => activeKey state .session != some entry.1, none, ?_,
        ?_, ?_, fun _ hentry => by cases hentry⟩
      · simp only [records, Option.map_some, Option.getD_some, applied]
        rw [hactive, hrecords]
        exact discard_active _ _
      · intro entry hmem hdrop hlive
        refine ⟨rfl, by simpa using hempty, ?_⟩
        rw [clearedKey, ← h.key hmem hlive]
        simpa using hdrop
      · rintro entry hmem hlive ⟨-, -, hcleared⟩
        rw [clearedKey, ← h.key hmem hlive] at hcleared
        exact Or.inl (by simp [hcleared])
  · next hne =>
      cases hscope : sessionScope platform payload with
      | none =>
          refine ⟨_, _, Effect.unchanged ?_ ?_⟩
          · simp only [records, Option.map_some, Option.getD_some]
            exact hrecords
          · exact fun _ _ herases => hne (beq_iff_eq.mpr herases.2.1)
      | some scope =>
          obtain ⟨enterprise, account⟩ := scope
          refine ⟨fun _ => true,
            some (buildIdentityKey platform enterprise account,
              sealRecord platform (loadOrCreateMasterKey state draw) draw
                (sessionContext (buildIdentityKey platform enterprise account))
                enterprise account payload), ?_,
            fun _ _ hkeep => (by cases hkeep),
            fun _ _ _ herases => absurd (beq_iff_eq.mpr herases.2.1) hne, ?_⟩
          · simp only [records, Option.map_some, Option.getD_some, applied]
            rw [hrecords, List.filter_eq_self.mpr (fun _ _ => rfl)]
            rfl
          · intro entry hentry
            cases hentry
            obtain ⟨text, rfl, htext⟩ := sessionScope_some hscope
            have hidentity : identityOf platform .session payload =
                some (named platform enterprise (trim text)) := by
              rw [identityOf, if_neg hne, hscope]
              rfl
            have hlive := sealRecord_live platform
              (loadOrCreateMasterKey state draw) draw
              (sessionContext (buildIdentityKey platform enterprise
                (trim text))) enterprise payload htext
            exact ⟨⟨_, draw.salt, payload, rfl, rfl,
              Or.inr ⟨hlive, hidentity, rfl⟩⟩,
              Or.inr ⟨hlive, rfl, hidentity⟩⟩

theorem sessionDelete_effect (enterprise account : Option String)
    (howned : ByKey .session enterprise account →
      Owned platform state .session (asked platform enterprise account)) :
    ∃ keep added, Effect platform state
      (sessionDelete platform state enterprise account).1 .session
      (.delete .session enterprise account) keep added := by
  cases hfile : state.session with
  | none =>
      refine ⟨_, _, Effect.unchanged (by simp [sessionDelete, hfile]) ?_⟩
      simp [records, hfile]
  | some vault =>
      have hrecords : vault.sessions = records state .session := by
        simp [records, hfile]
      have hactive : vault.activeKey = activeKey state .session := by
        simp [activeKey, hfile]
      unfold sessionDelete
      rw [hfile]
      simp only
      split
      · next hnamed =>
          have hby : ByKey .session enterprise account := by
            refine Or.inr ⟨rfl, ?_⟩
            simpa using hnamed
          refine ⟨fun entry => !decide (entry.1 =
            (asked platform enterprise account).key), none, ?_, ?_, ?_,
            fun _ hentry => by cases hentry⟩
          · simp only [records, Option.map_some, Option.getD_some, applied]
            rw [hrecords]
            rfl
          · intro entry hmem hdrop hlive
            have hkey : entry.1 = (asked platform enterprise account).key := by
              simpa using hdrop
            refine ⟨rfl, ?_⟩
            rw [if_pos hby, (howned hby).identity (h.keyed .session) hmem hkey
              hlive]
          · rintro entry hmem hlive ⟨-, hsame⟩
            rw [if_pos hby] at hsame
            refine Or.inl ?_
            rw [h.key hmem hlive, hsame]
            simp
      · next hnamed =>
          have hnone : filterText enterprise = "" ∧ filterText account = "" := by
            simpa using hnamed
          have hby : ¬ ByKey .session enterprise account := by
            simp [ByKey, NamesBoth, hnone.1, hnone.2]
          refine ⟨fun entry => activeKey state .session != some entry.1, none,
            ?_, ?_, ?_, fun _ hentry => by cases hentry⟩
          · simp only [records, Option.map_some, Option.getD_some, applied]
            rw [hactive, hrecords]
            exact discard_active _ _
          · intro entry hmem hdrop hlive
            refine ⟨rfl, ?_⟩
            rw [if_neg hby, if_neg (not_not_intro hnone.2),
              ← h.key hmem hlive]
            simpa using hdrop
          · rintro entry hmem hlive ⟨-, hsame⟩
            rw [if_neg hby, if_neg (not_not_intro hnone.2),
              ← h.key hmem hlive] at hsame
            exact Or.inl (by simp [hsame])

theorem credentialsWrite_effect (draw : Draw Key) (payload : String) :
    ∃ keep added, Effect platform state
      (credentialsWrite platform state draw payload).1 .credentials
      (.write .credentials payload) keep added := by
  have hrecords : (state.credentials.getD ⟨none, []⟩).entries =
      records state .credentials := by
    cases hs : state.credentials <;> simp [records, hs]
  have hcleared : some (tombstoneKey platform
      (state.credentials.getD ⟨none, []⟩)) =
      clearedKey platform state .credentials := by
    cases hs : state.credentials <;>
      simp [clearedKey, activeKey, tombstoneKey, hs]
  unfold credentialsWrite
  simp only
  split
  · next hempty =>
      have hpayload : payload = "" := by simpa using hempty
      subst hpayload
      refine ⟨fun _ => true,
        some (tombstoneKey platform (state.credentials.getD ⟨none, []⟩),
          sealRecord platform (loadOrCreateMasterKey state draw) draw
            (credentialContext (tombstoneKey platform
              (state.credentials.getD ⟨none, []⟩))) "" "" ""), ?_,
        fun _ _ hkeep => (by cases hkeep), ?_, ?_⟩
      · simp only [records, Option.map_some, Option.getD_some, applied]
        rw [hrecords, List.filter_eq_self.mpr (fun _ _ => rfl)]
        rfl
      · rintro entry hmem hlive ⟨-, -, hkey⟩
        refine Or.inr ⟨_, rfl, ?_⟩
        rw [← hcleared, ← h.key hmem hlive] at hkey
        exact Option.some.inj hkey
      · intro entry hentry
        cases hentry
        have htomb : isTombstone (sealRecord platform
            (loadOrCreateMasterKey state draw) draw (credentialContext
              (tombstoneKey platform (state.credentials.getD ⟨none, []⟩)))
            "" "" "") = true := by
          simp [isTombstone, sealRecord, trim]
        exact ⟨⟨_, draw.salt, "", rfl, rfl, Or.inl ⟨rfl, htomb⟩⟩,
          Or.inl ⟨htomb, rfl, hcleared.symm⟩⟩
  · next hne =>
      cases hscope : credentialScope platform payload with
      | error detail =>
          refine ⟨_, _, Effect.unchanged rfl ?_⟩
          exact fun _ _ herases => hne (beq_iff_eq.mpr herases.2.1)
      | ok scope =>
          obtain ⟨enterprise, account⟩ := scope
          refine ⟨fun entry => !isTombstone entry.2,
            some (buildIdentityKey platform enterprise account,
              sealRecord platform (loadOrCreateMasterKey state draw) draw
                (credentialContext
                  (buildIdentityKey platform enterprise account))
                enterprise account payload), ?_, ?_,
            fun _ _ _ herases => absurd (beq_iff_eq.mpr herases.2.1) hne, ?_⟩
          · simp only [records, Option.map_some, Option.getD_some, applied]
            rw [hrecords]
            rfl
          · intro entry _ hdrop hlive
            simp [hlive] at hdrop
          · intro entry hentry
            cases hentry
            obtain ⟨text, rfl, htext⟩ := credentialScope_ok hscope
            have hidentity : identityOf platform .credentials payload =
                some (named platform enterprise (trim text)) := by
              rw [identityOf, if_neg hne, hscope]
              rfl
            have hlive := sealRecord_live platform
              (loadOrCreateMasterKey state draw) draw
              (credentialContext (buildIdentityKey platform enterprise
                (trim text))) enterprise payload htext
            exact ⟨⟨_, draw.salt, payload, rfl, rfl,
              Or.inr ⟨hlive, hidentity, rfl⟩⟩,
              Or.inr ⟨hlive, rfl, hidentity⟩⟩

theorem credentialsDelete_effect (enterprise account : Option String)
    (howned : ByKey .credentials enterprise account →
      Owned platform state .credentials (asked platform enterprise account)) :
    ∃ keep added, Effect platform state
      (credentialsDelete platform state enterprise account).1 .credentials
      (.delete .credentials enterprise account) keep added := by
  cases hfile : state.credentials with
  | none =>
      refine ⟨_, _, Effect.unchanged (by simp [credentialsDelete, hfile]) ?_⟩
      simp [records, hfile]
  | some vault =>
      have hrecords : vault.entries = records state .credentials := by
        simp [records, hfile]
      have hactive : vault.lastActiveKey = activeKey state .credentials := by
        simp [activeKey, hfile]
      have hresult : records (credentialsDelete platform state enterprise
          account).1 .credentials = kept (deleteEntries platform vault
            (filterText enterprise) (filterText account)).2 := by
        rw [credentialsDelete, hfile]
        rfl
      -- what a branch keeps, before the tombstones go
      have hreduce : ∀ keep : String × StoredRecord Envelope → Bool,
          (deleteEntries platform vault (filterText enterprise)
            (filterText account)).2 = vault.entries.filter keep →
          (∀ entry ∈ records state .credentials,
            isTombstone entry.2 = false →
            (keep entry = false ↔ Erases platform state .credentials
              (recordIdentity platform entry.2)
              (.delete .credentials enterprise account))) →
          ∃ keep added, Effect platform state
            (credentialsDelete platform state enterprise account).1
            .credentials (.delete .credentials enterprise account) keep
            added := by
        intro keep hkeep hdrop
        refine ⟨fun entry => keep entry && !isTombstone entry.2, none, ?_, ?_,
          ?_, fun _ hentry => by cases hentry⟩
        · rw [hresult, hkeep, hrecords, applied, kept, List.filter_filter]
          exact List.filter_congr fun entry _ => Bool.and_comm _ _
        · intro entry hmem hfalse hlive
          refine (hdrop entry hmem hlive).mp ?_
          simpa [hlive] using hfalse
        · intro entry hmem hlive herases
          exact Or.inl (by simp [(hdrop entry hmem hlive).mpr herases])
      by_cases hboth : NamesBoth enterprise account
      · have hby : ByKey .credentials enterprise account := Or.inl hboth
        apply hreduce fun entry => !decide (entry.1 =
          (asked platform enterprise account).key)
        · rw [deleteEntries, if_pos (by simp [hboth.1, hboth.2])]
          rfl
        · intro entry hmem hlive
          rw [Erases, if_pos hby]
          constructor
          · intro hdrop
            refine ⟨rfl, ?_⟩
            exact ((howned hby).identity (h.keyed .credentials) hmem
              (by simpa using hdrop) hlive).symm
          · rintro ⟨-, hsame⟩
            rw [h.key hmem hlive, hsame]
            simp
      · have hby : ¬ ByKey .credentials enterprise account := by
          simpa [ByKey] using hboth
        by_cases haccount : filterText account = ""
        · apply hreduce fun entry =>
            activeKey state .credentials != some entry.1
          · rw [deleteEntries, if_neg (by simp [haccount]),
              if_neg (by simp [haccount]), ← hactive, ← discard_active]
            cases vault.lastActiveKey <;> rfl
          · intro entry hmem hlive
            rw [Erases, if_neg hby, if_neg (not_not_intro haccount),
              ← h.key hmem hlive]
            simp
        · have henterprise : filterText enterprise = "" := by
            by_contra hne
            exact hboth ⟨hne, haccount⟩
          apply hreduce fun entry =>
            normalizeSegment platform entry.2.account !=
              normalizeSegment platform (filterText account)
          · rw [deleteEntries, if_neg (by simp [henterprise]),
              if_pos (by simp [haccount])]
          · intro entry _ _
            rw [Erases, if_neg hby, if_pos haccount]
            simp only [bne_eq_false_iff_eq, true_and]
            exact eq_comm

end

end AiTeam.Vault
