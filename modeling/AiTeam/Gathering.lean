/-
Lists whose members of one key are gathered at the first of them.
-/
import Mathlib.Data.List.Induction
import Mathlib.Data.List.Perm.Basic
import AiTeam.Table

namespace AiTeam.Gathering

universe u w

variable {α : Type u} {K : Type w} [DecidableEq K]

/-- A class by its first member and the others. -/
abbrev Class (α : Type u) : Type u := α × List α

def members (c : Class α) : List α := c.1 :: c.2

/-- The class takes members of this key. -/
def takes (key : α → Option K) (k : K) (c : Class α) : Bool :=
  key c.1 == some k

def grow (key : α → Option K) (k : K) (a : α) (c : Class α) : Class α :=
  if takes key k c then (c.1, c.2 ++ [a]) else c

/-- The member joins its class or begins one. -/
def place (key : α → Option K) (a : α) (classes : List (Class α)) :
    List (Class α) :=
  match key a with
  | none => classes ++ [(a, [])]
  | some k =>
      if classes.any (takes key k) then classes.map (grow key k a)
      else classes ++ [(a, [])]

/-- The members by their keys; one without a key stands alone. -/
def classes (key : α → Option K) (items : List α) : List (Class α) :=
  items.foldl (fun cs a => place key a cs) []

/-- One member into what is gathered, with a map from the keys to the places. -/
def gatherStep (key : α → Option K) (merge : α → α → α)
    (state : List α × List (K × Nat)) (a : α) : List α × List (K × Nat) :=
  match key a with
  | none => (state.1 ++ [a], state.2)
  | some k =>
      match valueAt k state.2 with
      | none => (state.1 ++ [a], assign k state.1.length state.2)
      | some i => (state.1.modify i fun previous => merge previous a, state.2)

/-- The items, each merged into the first one of its key. -/
def gather (key : α → Option K) (merge : α → α → α) (items : List α) :
    List α :=
  (items.foldl (gatherStep key merge) ([], [])).1

def fold (merge : α → α → α) (c : Class α) : α := c.2.foldl merge c.1

variable {key : α → Option K} {k : K} {c : Class α} {cs : List (Class α)}
  {a : α} {items : List α}

theorem takes_iff : takes key k c = true ↔ key c.1 = some k := beq_iff_eq

theorem grow_fst (key : α → Option K) (k : K) (a : α) (c : Class α) :
    (grow key k a c).1 = c.1 := by
  rw [grow]
  split <;> rfl

theorem classes_snoc (key : α → Option K) (items : List α) (a : α) :
    classes key (items ++ [a]) = place key a (classes key items) := by
  rw [classes, List.foldl_append]
  rfl

omit [DecidableEq K] in
theorem fold_snoc (merge : α → α → α) (c : Class α) (a : α) :
    fold merge (c.1, c.2 ++ [a]) = merge (fold merge c) a := by
  rw [fold, List.foldl_append]
  rfl

/-! ### The classes -/

/-- No key has two classes. -/
def Apart (key : α → Option K) (cs : List (Class α)) : Prop :=
  cs.Pairwise fun c d => ∀ k, key c.1 = some k → key d.1 ≠ some k

/-- The member is the first of its key, or another of one. -/
theorem place_cases (key : α → Option K) (a : α) (cs : List (Class α)) :
    ((∀ c ∈ cs, ∀ k, key c.1 = some k → key a ≠ some k) ∧
        place key a cs = cs ++ [(a, [])]) ∨
      ∃ k, key a = some k ∧ (∃ c ∈ cs, key c.1 = some k) ∧
        place key a cs = cs.map (grow key k a) := by
  rw [place]
  split
  · next hnone =>
    refine .inl ⟨fun c _ k _ hk => ?_, rfl⟩
    rw [hnone] at hk
    exact nomatch hk
  · next k hk =>
    by_cases hany : cs.any (takes key k) = true
    · rw [if_pos hany]
      obtain ⟨c, hc, htakes⟩ := List.any_eq_true.mp hany
      exact .inr ⟨k, hk, ⟨c, hc, takes_iff.mp htakes⟩, rfl⟩
    · rw [if_neg hany]
      refine .inl ⟨fun c hc other hother hsame => hany ?_, rfl⟩
      apply List.any_eq_true.mpr
      exact ⟨c, hc, takes_iff.mpr (hother.trans (hsame.symm.trans hk))⟩

theorem map_grow_of_fresh (h : ∀ c ∈ cs, key c.1 ≠ some k) (a : α) :
    cs.map (grow key k a) = cs := by
  apply (List.map_congr_left fun c hc => ?_).trans (List.map_id cs)
  exact if_neg fun htakes => h c hc (takes_iff.mp htakes)

theorem map_fst_grow (key : α → Option K) (k : K) (a : α)
    (cs : List (Class α)) :
    (cs.map (grow key k a)).map Prod.fst = cs.map Prod.fst := by
  rw [List.map_map]
  exact List.map_congr_left fun c _ => grow_fst key k a c

theorem perm_grow (a : α) (hapart : Apart key cs)
    (hsome : ∃ c ∈ cs, key c.1 = some k) :
    ((cs.map (grow key k a)).flatMap members).Perm
      (cs.flatMap members ++ [a]) := by
  induction cs with
  | nil =>
      obtain ⟨c, hc, -⟩ := hsome
      exact nomatch hc
  | cons c cs ih =>
      obtain ⟨hfirst, hrest⟩ := List.pairwise_cons.mp hapart
      rw [List.map_cons, List.flatMap_cons, List.flatMap_cons,
        List.append_assoc]
      by_cases hc : key c.1 = some k
      · have hfresh : ∀ d ∈ cs, key d.1 ≠ some k := fun d hd =>
          hfirst d hd k hc
        have hgrow : members (grow key k a c) = members c ++ [a] := by
          rw [grow, if_pos (takes_iff.mpr hc)]
          rfl
        rw [map_grow_of_fresh hfresh, hgrow, List.append_assoc]
        exact List.perm_append_comm.append_left (members c)
      · have hgrow : grow key k a c = c :=
          if_neg fun htakes => hc (takes_iff.mp htakes)
        have hsome' : ∃ d ∈ cs, key d.1 = some k := by
          obtain ⟨d, hd, hkey⟩ := hsome
          rcases List.mem_cons.mp hd with rfl | hd
          · exact absurd hkey hc
          · exact ⟨d, hd, hkey⟩
        rw [hgrow]
        exact (ih hrest hsome').append_left (members c)

theorem Apart.place (h : Apart key cs) (a : α) :
    Apart key (place key a cs) := by
  rcases place_cases key a cs with ⟨hfresh, hplace⟩ | ⟨k, -, -, hplace⟩
  · rw [hplace]
    apply List.pairwise_append.mpr
    refine ⟨h, List.pairwise_singleton _ _, fun c hc d hd k hk => ?_⟩
    rw [List.mem_singleton.mp hd]
    exact hfresh c hc k hk
  · rw [hplace]
    apply List.pairwise_map.mpr
    simp only [grow_fst]
    exact h

theorem classes_apart (key : α → Option K) (items : List α) :
    Apart key (classes key items) := by
  induction items using List.reverseRecOn with
  | nil => exact List.Pairwise.nil
  | append_singleton items a ih =>
      rw [classes_snoc]
      exact ih.place a

/-- Each member is in a class. -/
theorem classes_perm (key : α → Option K) (items : List α) :
    ((classes key items).flatMap members).Perm items := by
  induction items using List.reverseRecOn with
  | nil => exact List.Perm.refl _
  | append_singleton items a ih =>
      rw [classes_snoc]
      rcases place_cases key a (classes key items) with
        ⟨-, hplace⟩ | ⟨k, -, hsome, hplace⟩
      · rw [hplace, List.flatMap_append]
        exact ih.append_right [a]
      · rw [hplace]
        exact (perm_grow a (classes_apart key items) hsome).trans
          (ih.append_right [a])

/-- The classes stand in the order of their first members. -/
theorem classes_first (key : α → Option K) (items : List α) :
    ((classes key items).map Prod.fst).Sublist items := by
  induction items using List.reverseRecOn with
  | nil => exact List.Sublist.refl _
  | append_singleton items a ih =>
      rw [classes_snoc]
      rcases place_cases key a (classes key items) with
        ⟨-, hplace⟩ | ⟨k, -, -, hplace⟩
      · rw [hplace, List.map_append]
        exact ih.append (List.Sublist.refl [a])
      · rw [hplace, map_fst_grow]
        exact ih.trans (List.sublist_append_left items [a])

/-- A member stands alone, or with all the others of its key. -/
def Whole (key : α → Option K) (items : List α) (c : Class α) : Prop :=
  (key c.1 = none ∧ c.2 = []) ∨
    ∃ k, key c.1 = some k ∧ members c = items.filter fun a => key a == some k

theorem filter_snoc_of_ne (h : key a ≠ some k) (items : List α) :
    ((items ++ [a]).filter fun b => key b == some k) =
      items.filter fun b => key b == some k := by
  have hlast : ([a].filter fun b => key b == some k) = [] :=
    List.filter_eq_nil_iff.mpr (List.forall_mem_singleton.mpr
      fun hk => h (beq_iff_eq.mp hk))
  rw [List.filter_append, hlast, List.append_nil]

theorem filter_snoc_of_eq (h : key a = some k) (items : List α) :
    ((items ++ [a]).filter fun b => key b == some k) =
      (items.filter fun b => key b == some k) ++ [a] := by
  have hlast : ([a].filter fun b => key b == some k) = [a] :=
    List.filter_eq_self.mpr (List.forall_mem_singleton.mpr
      (beq_iff_eq.mpr h))
  rw [List.filter_append, hlast]

theorem Whole.snoc (h : Whole key items c)
    (hother : ∀ k, key c.1 = some k → key a ≠ some k) :
    Whole key (items ++ [a]) c := by
  rcases h with ⟨hnone, halone⟩ | ⟨k, hk, hmembers⟩
  · exact .inl ⟨hnone, halone⟩
  · exact .inr ⟨k, hk, by rw [filter_snoc_of_ne (hother k hk), hmembers]⟩

theorem key_of_member (h : Whole key items c) (ha : a ∈ members c) :
    key a = key c.1 := by
  rcases h with ⟨-, halone⟩ | ⟨k, hk, hmembers⟩
  · rw [members, halone, List.mem_singleton] at ha
    rw [ha]
  · rw [hmembers] at ha
    rw [hk]
    exact beq_iff_eq.mp (List.mem_filter.mp ha).2

theorem classes_whole (key : α → Option K) (items : List α) :
    ∀ c ∈ classes key items, Whole key items c := by
  induction items using List.reverseRecOn with
  | nil => exact fun c hc => nomatch hc
  | append_singleton items a ih =>
      rw [classes_snoc]
      rcases place_cases key a (classes key items) with
        ⟨hfresh, hplace⟩ | ⟨k, hk, hsome, hplace⟩
      · rw [hplace]
        intro c hc
        rcases List.mem_append.mp hc with hc | hc
        · exact (ih c hc).snoc (hfresh c hc)
        · rw [List.mem_singleton.mp hc]
          cases hkey : key a with
          | none => exact .inl ⟨hkey, rfl⟩
          | some k =>
              refine .inr ⟨k, hkey, ?_⟩
              have hnone : (items.filter fun b => key b == some k) = [] := by
                apply List.filter_eq_nil_iff.mpr
                intro b hb hbk
                obtain ⟨d, hd, hmem⟩ := List.mem_flatMap.mp
                  ((classes_perm key items).mem_iff.mpr hb)
                have hsame := key_of_member (ih d hd) hmem
                exact hfresh d hd k (hsame.symm.trans (beq_iff_eq.mp hbk)) hkey
              rw [filter_snoc_of_eq hkey, hnone]
              rfl
      · rw [hplace]
        intro d hd
        obtain ⟨c, hc, rfl⟩ := List.mem_map.mp hd
        by_cases hck : key c.1 = some k
        · refine .inr ⟨k, by rw [grow_fst, hck], ?_⟩
          rw [grow, if_pos (takes_iff.mpr hck), filter_snoc_of_eq hk]
          rcases ih c hc with ⟨hnone, -⟩ | ⟨other, hother, hmembers⟩
          · rw [hck] at hnone
            exact nomatch hnone
          · rw [hck] at hother
            rw [Option.some.inj hother, ← hmembers]
            rfl
        · rw [grow, if_neg fun htakes => hck (takes_iff.mp htakes)]
          apply (ih c hc).snoc
          intro other hother hsame
          rw [hk] at hsame
          rw [Option.some.inj hsame] at hck
          exact hck hother

/-! ### What is gathered -/

theorem map_grow_of_findIdx? {merge : α → α → α} {i : Nat}
    (hapart : Apart key cs) (h : cs.findIdx? (takes key k) = some i) (a : α) :
    (cs.map (fold merge)).modify i (fun previous => merge previous a) =
      (cs.map (grow key k a)).map (fold merge) := by
  induction cs generalizing i with
  | nil => exact nomatch h
  | cons c cs ih =>
      obtain ⟨hfirst, hrest⟩ := List.pairwise_cons.mp hapart
      rw [List.findIdx?_cons] at h
      by_cases hc : takes key k c = true
      · rw [if_pos hc] at h
        obtain rfl := Option.some.inj h
        have hfresh : ∀ d ∈ cs, key d.1 ≠ some k := fun d hd =>
          hfirst d hd k (takes_iff.mp hc)
        rw [List.map_cons, List.map_cons, List.modify_zero_cons,
          map_grow_of_fresh hfresh, List.map_cons, grow, if_pos hc, fold_snoc]
      · rw [if_neg hc] at h
        obtain ⟨j, hj, rfl⟩ := Option.map_eq_some_iff.mp h
        rw [List.map_cons, List.map_cons, List.modify_succ_cons, ih hrest hj,
          List.map_cons, grow, if_neg hc]

theorem findIdx?_grow (key : α → Option K) (k other : K) (a : α)
    (cs : List (Class α)) :
    (cs.map (grow key k a)).findIdx? (takes key other) =
      cs.findIdx? (takes key other) := by
  rw [List.findIdx?_map]
  congr 1
  funext c
  rw [Function.comp_apply, takes, grow_fst, takes]

/-- The map knows the place of each class that takes members. -/
theorem gather_state (key : α → Option K) (merge : α → α → α)
    (items : List α) :
    (items.foldl (gatherStep key merge) ([], [])).1 =
        (classes key items).map (fold merge) ∧
      ∀ k, valueAt k (items.foldl (gatherStep key merge) ([], [])).2 =
        (classes key items).findIdx? (takes key k) := by
  induction items using List.reverseRecOn with
  | nil => exact ⟨rfl, fun k => rfl⟩
  | append_singleton items a ih =>
      obtain ⟨hgathered, hindices⟩ := ih
      rw [List.foldl_append, List.foldl_cons, List.foldl_nil, classes_snoc]
      generalize items.foldl (gatherStep key merge) ([], []) = state at *
      have hlast : ∀ k, ((classes key items) ++ [(a, [])]).findIdx?
          (takes key k) = ((classes key items).findIdx? (takes key k)).or
            (if key a = some k then some (classes key items).length
              else none) := by
        intro k
        rw [List.findIdx?_append, List.findIdx?_singleton]
        congr 1
        by_cases hk : key a = some k
        · rw [if_pos hk, if_pos (takes_iff.mpr hk)]
          exact congrArg some (Nat.zero_add _)
        · rw [if_neg hk, if_neg fun htakes => hk (takes_iff.mp htakes)]
          rfl
      have hsnoc : state.1 ++ [a] =
          ((classes key items) ++ [(a, [])]).map (fold merge) := by
        rw [List.map_append, hgathered]
        rfl
      rw [gatherStep, place]
      split
      · next hnone =>
        refine ⟨hsnoc, fun k => ?_⟩
        rw [hindices k, hlast, hnone, if_neg (fun h => nomatch h),
          Option.or_none]
      · next k hk =>
        rw [hindices k]
        cases hfound : (classes key items).findIdx? (takes key k) with
        | none =>
            have hany : ¬ (classes key items).any (takes key k) = true := by
              rw [List.any_eq_true]
              rintro ⟨c, hc, htakes⟩
              rw [List.findIdx?_eq_none_iff.mp hfound c hc] at htakes
              exact nomatch htakes
            rw [if_neg hany]
            refine ⟨hsnoc, fun other => ?_⟩
            rw [valueAt_assign, hindices other, hlast, hgathered,
              List.length_map, hk]
            by_cases hother : other = k
            · rw [hother, if_pos rfl, hfound, if_pos rfl]
              rfl
            · rw [if_neg hother,
                if_neg fun h => hother (Option.some.inj h).symm,
                Option.or_none]
        | some i =>
            have hany : (classes key items).any (takes key k) = true := by
              rw [← List.findIdx?_isSome, hfound]
              rfl
            rw [if_pos hany]
            refine ⟨?_, fun other => ?_⟩
            · rw [hgathered]
              exact map_grow_of_findIdx? (classes_apart key items) hfound a
            · rw [hindices other, findIdx?_grow]

theorem gather_eq (key : α → Option K) (merge : α → α → α) (items : List α) :
    gather key merge items = (classes key items).map (fold merge) :=
  (gather_state key merge items).1

theorem members_sublist (hc : c ∈ classes key items) :
    (members c).Sublist items := by
  rcases classes_whole key items c hc with ⟨-, halone⟩ | ⟨k, -, hmembers⟩
  · rw [members, halone]
    exact List.singleton_sublist.mpr ((classes_first key items).subset
      (List.mem_map_of_mem hc))
  · rw [hmembers]
    exact List.filter_sublist ..

/-! ### Members together -/

/-- Two members are in a class together just when they have one key. -/
theorem together_iff {b : α} (ha : a ∈ items) (hb : b ∈ items) (hne : a ≠ b) :
    (∃ c ∈ classes key items, a ∈ members c ∧ b ∈ members c) ↔
      ∃ k, key a = some k ∧ key b = some k := by
  constructor
  · rintro ⟨c, hc, hac, hbc⟩
    have hwhole := classes_whole key items c hc
    have hakey := key_of_member hwhole hac
    have hbkey := key_of_member hwhole hbc
    rcases hwhole with ⟨-, halone⟩ | ⟨k, hk, -⟩
    · rw [members, halone, List.mem_singleton] at hac hbc
      exact absurd (hac.trans hbc.symm) hne
    · exact ⟨k, hakey.trans hk, hbkey.trans hk⟩
  · rintro ⟨k, hak, hbk⟩
    obtain ⟨c, hc, hac⟩ := List.mem_flatMap.mp
      ((classes_perm key items).mem_iff.mpr ha)
    have hwhole := classes_whole key items c hc
    have hck : key c.1 = some k := (key_of_member hwhole hac).symm.trans hak
    rcases hwhole with ⟨hnone, -⟩ | ⟨other, hother, hmembers⟩
    · rw [hck] at hnone
      exact nomatch hnone
    · rw [hck] at hother
      refine ⟨c, hc, hac, ?_⟩
      rw [hmembers, ← Option.some.inj hother]
      exact List.mem_filter.mpr ⟨hb, beq_iff_eq.mpr hbk⟩

section

variable {β : Type u} (f : β → α)

def mapClass (c : Class β) : Class α := (f c.1, c.2.map f)

omit [DecidableEq K] in
theorem members_mapClass (c : Class β) :
    members (mapClass f c) = (members c).map f := rfl

theorem place_map (key : α → Option K) (b : β) (cs : List (Class β)) :
    place key (f b) (cs.map (mapClass f)) =
      (place (fun b => key (f b)) b cs).map (mapClass f) := by
  rw [place, place]
  split
  · rw [List.map_append]
    rfl
  · next k _ =>
    have hany : (cs.map (mapClass f)).any (takes key k) =
        cs.any (takes (fun b => key (f b)) k) := List.any_map
    rw [hany]
    split
    · rw [List.map_map, List.map_map]
      apply List.map_congr_left
      intro c _
      rw [Function.comp_apply, Function.comp_apply, grow, grow]
      show (if takes (fun b => key (f b)) k c then _ else _) = _
      split
      · rw [mapClass, mapClass, List.map_append]
        rfl
      · rfl
    · rw [List.map_append]
      rfl

theorem classes_map (key : α → Option K) (items : List β) :
    classes key (items.map f) =
      (classes (fun b => key (f b)) items).map (mapClass f) := by
  induction items using List.reverseRecOn with
  | nil => rfl
  | append_singleton items b ih =>
      rw [List.map_append, List.map_singleton, classes_snoc, ih, place_map,
        classes_snoc]

end

end AiTeam.Gathering
