/-
Breadth-first search over an implicit graph: the marks, the queue and the turns
of the search, and that it finds a shortest route exactly when there is one.
The test of an edge may keep a state of its own.
-/
import Mathlib.Data.List.Chain
import Mathlib.Data.List.Nodup
import Mathlib.Data.List.Perm.Subperm
import Mathlib.Logic.Function.Basic

namespace AiTeam.BreadthFirst

universe u v

variable {A : Type u} [DecidableEq A] {S : Type v}

/-- Where a node was entered from. -/
inductive Mark (A : Type u) where
  | unseen
  | start
  | after (parent : A)
deriving DecidableEq

/-- `queue` holds every node that was entered, and `head` counts those whose
turn is over. -/
structure Search (A : Type u) where
  previous : A → Mark A
  queue : List A
  head : Nat

def Search.enter (search : Search A) (mark : Mark A) (node : A) : Search A :=
  { search with
    previous := Function.update search.previous node mark
    queue := search.queue ++ [node] }

/-- The turn of the node at the head is over. -/
def Search.turned (search : Search A) : Search A :=
  { search with head := search.head + 1 }

def initial (starts : List A) : Search A :=
  starts.foldl (fun search node => search.enter .start node)
    ⟨fun _ => .unseen, [], 0⟩

/-- A node next to `node` is entered when it is unseen and the edge is there. -/
def visit (edge : S → A → A → Bool × S) (node : A) (now : S × Search A)
    (next : A) : S × Search A :=
  if now.2.previous next = .unseen then
    let answer := edge now.1 node next
    (answer.2, if answer.1 then now.2.enter (.after node) next else now.2)
  else now

inductive Outcome (A : Type u) where
  | running
  | exhausted
  | found (node : A)
deriving DecidableEq

/-- So many turns of the search. -/
def search (goal : A → Bool) (nexts : A → List A)
    (edge : S → A → A → Bool × S) :
    Nat → S × Search A → Outcome A × S × Search A
  | 0, now => (.running, now)
  | turns + 1, now =>
      match now.2.queue[now.2.head]? with
      | none => (.exhausted, now)
      | some node =>
          if goal node then (.found node, now)
          else
            let later := (nexts node).foldl (visit edge node) now
            search goal nexts edge turns
              (later.1, later.2.turned)

/-- The nodes from a node back to the start it was reached from. -/
def climb (previous : A → Mark A) : Nat → A → List A
  | 0, _ => []
  | steps + 1, node =>
      node :: match previous node with
        | .after parent => climb previous steps parent
        | _ => []

/-- An edge test that keeps no state. -/
def plain (joined : A → A → Bool) : Unit → A → A → Bool × Unit :=
  fun _ node next => (joined node next, ())

/-! ### Tests with a state -/

/-- While its state is good, the test answers what `joined` says. -/
def Answers (nexts : A → List A) (edge : S → A → A → Bool × S)
    (good : S → Prop) (joined : A → A → Bool) : Prop :=
  ∀ state node next, good state → next ∈ nexts node →
    (edge state node next).1 = joined node next ∧
      good (edge state node next).2

section Answers

variable {goal : A → Bool} {nexts : A → List A} {edge : S → A → A → Bool × S}
  {good : S → Prop} {joined : A → A → Bool}

theorem visit_plain (h : Answers nexts edge good joined) {node next : A}
    (hnext : next ∈ nexts node) {now : S × Search A} {still : Unit × Search A}
    (hgood : good now.1) (hsame : now.2 = still.2) :
    good (visit edge node now next).1 ∧
      (visit edge node now next).2 = (visit (plain joined) node still next).2 := by
  obtain ⟨hanswer, hstate⟩ := h now.1 node next hgood hnext
  rw [visit, visit, ← hsame]
  by_cases hunseen : now.2.previous next = .unseen
  · rw [if_pos hunseen, if_pos hunseen]
    refine ⟨hstate, ?_⟩
    dsimp only [plain]
    rw [hanswer]
  · rw [if_neg hunseen, if_neg hunseen]
    exact ⟨hgood, hsame⟩

theorem visits_plain (h : Answers nexts edge good joined) {node : A} :
    ∀ (list : List A), (∀ next ∈ list, next ∈ nexts node) →
      ∀ {now : S × Search A} {still : Unit × Search A}, good now.1 →
        now.2 = still.2 →
        good (list.foldl (visit edge node) now).1 ∧
          (list.foldl (visit edge node) now).2 =
            (list.foldl (visit (plain joined) node) still).2 := by
  intro list
  induction list with
  | nil => exact fun _ _ _ hgood hsame => ⟨hgood, hsame⟩
  | cons next rest ih =>
      intro hlist now still hgood hsame
      obtain ⟨hgood', hsame'⟩ := visit_plain h (hlist next List.mem_cons_self)
        hgood hsame
      exact ih (fun other hother => hlist other (List.mem_cons_of_mem _ hother))
        hgood' hsame'

/-- The search does not depend on what the test remembers. -/
theorem search_plain (h : Answers nexts edge good joined) (turns : Nat) :
    ∀ {now : S × Search A} {still : Unit × Search A}, good now.1 →
      now.2 = still.2 →
      good (search goal nexts edge turns now).2.1 ∧
        (search goal nexts edge turns now).1 =
          (search goal nexts (plain joined) turns still).1 ∧
        (search goal nexts edge turns now).2.2 =
          (search goal nexts (plain joined) turns still).2.2 := by
  induction turns with
  | zero => exact fun hgood hsame => ⟨hgood, rfl, hsame⟩
  | succ turns ih =>
      intro now still hgood hsame
      rw [search, search, hsame]
      cases hhead : still.2.queue[still.2.head]? with
      | none => exact ⟨hgood, rfl, hsame⟩
      | some node =>
          dsimp only
          by_cases hgoal : goal node = true
          · rw [if_pos hgoal, if_pos hgoal]
            exact ⟨hgood, rfl, hsame⟩
          · rw [if_neg hgoal, if_neg hgoal]
            obtain ⟨hgood', hsame'⟩ := visits_plain h (nexts node)
              (fun _ hnext => hnext) hgood hsame
            exact @ih (_, Search.turned _) (_, Search.turned _) hgood'
              (congrArg Search.turned hsame')

end Answers

/-! ### Routes -/

/-- An edge of the graph. -/
def Joined (nexts : A → List A) (joined : A → A → Bool) (a b : A) : Prop :=
  b ∈ nexts a ∧ joined a b = true

/-- Nodes from a start to a goal, edge by edge. -/
structure Route (starts : List A) (goal : A → Bool) (nexts : A → List A)
    (joined : A → A → Bool) (route : List A) : Prop where
  start : ∃ node ∈ starts, route.head? = some node
  edges : route.IsChain (Joined nexts joined)
  goal : ∃ node, route.getLast? = some node ∧ goal node = true

/-- `depth` counts the edges from a start to each node of the queue.  The queue
is in the order of the depths, and what is next to a node whose turn is over is
in it. -/
structure Sound (starts cells : List A) (nexts : A → List A)
    (joined : A → A → Bool) (depth : A → Nat) (search : Search A) : Prop where
  seen : ∀ a, search.previous a ≠ .unseen ↔ a ∈ search.queue
  nodup : search.queue.Nodup
  inside : search.queue ⊆ cells
  within : search.head ≤ search.queue.length
  start : ∀ a, search.previous a = .start → a ∈ starts ∧ depth a = 0
  parent : ∀ a parent, search.previous a = .after parent →
    parent ∈ search.queue ∧ Joined nexts joined parent a ∧
      depth a = depth parent + 1
  begun : ∀ a ∈ starts, a ∈ search.queue ∧ depth a = 0
  sorted : search.queue.Pairwise fun a b => depth a ≤ depth b
  low : ∀ (i : Nat) a, search.queue[i]? = some a → depth a ≤ i
  near : ∀ node, search.queue[search.head]? = some node →
    ∀ a ∈ search.queue, depth a ≤ depth node + 1
  closed : ∀ a ∈ search.queue.take search.head, ∀ b,
    Joined nexts joined a b → b ∈ search.queue ∧ depth b ≤ depth a + 1

/-- No node whose turn is over is a goal. -/
def Missed (goal : A → Bool) (search : Search A) : Prop :=
  ∀ a ∈ search.queue.take search.head, goal a = false

section Search

variable {starts cells : List A} {goal : A → Bool} {nexts : A → List A}
  {joined : A → A → Bool} {depth : A → Nat} {search : Search A}

theorem foldl_enter_start (list : List A) (search : Search A) :
    list.foldl (fun search node => search.enter .start node) search =
      { previous := fun a => if a ∈ list then .start else search.previous a
        queue := search.queue ++ list
        head := search.head } := by
  induction list generalizing search with
  | nil => simp
  | cons node rest ih =>
      rw [List.foldl_cons, ih]
      simp only [Search.enter, List.append_assoc, List.singleton_append,
        Search.mk.injEq, and_true]
      funext a
      by_cases hrest : a ∈ rest
      · simp [hrest]
      · by_cases hnode : a = node
        · simp [hnode]
        · simp [hrest, hnode]

theorem initial_eq (starts : List A) :
    initial starts =
      { previous := fun a => if a ∈ starts then .start else .unseen
        queue := starts
        head := 0 } := by
  rw [initial, foldl_enter_start]
  rfl

theorem Sound.initial (hnodup : starts.Nodup) (hinside : starts ⊆ cells) :
    Sound starts cells nexts joined (fun _ => 0) (initial starts) := by
  rw [initial_eq]
  constructor
  · intro a
    by_cases ha : a ∈ starts <;> simp [ha]
  · exact hnodup
  · exact hinside
  · exact Nat.zero_le _
  · intro a ha
    by_cases hmem : a ∈ starts
    · exact ⟨hmem, rfl⟩
    · simp [hmem] at ha
  · intro a parent ha
    by_cases hmem : a ∈ starts <;> simp [hmem] at ha
  · exact fun a ha => ⟨ha, rfl⟩
  · exact List.pairwise_of_forall fun _ _ => Nat.le_refl 0
  · exact fun i _ _ => Nat.zero_le i
  · exact fun _ _ _ _ => Nat.zero_le _
  · intro a ha
    simp at ha

/-- A node joined to the one whose turn it is can be entered. -/
theorem Sound.enter (h : Sound starts cells nexts joined depth search)
    {node next : A} (hnode : search.queue[search.head]? = some node)
    (hnext : Joined nexts joined node next) (hcell : next ∈ cells)
    (hunseen : search.previous next = .unseen) :
    ∃ depth', (∀ a ∈ search.queue, depth' a = depth a) ∧
      depth' next = depth node + 1 ∧
      Sound starts cells nexts joined depth'
        (search.enter (.after node) next) := by
  have hfresh : next ∉ search.queue := fun hmem =>
    (h.seen next).mpr hmem hunseen
  have hmem : node ∈ search.queue := List.mem_of_getElem? hnode
  have hlt : search.head < search.queue.length :=
    (List.getElem?_eq_some_iff.mp hnode).1
  have hold : ∀ a ∈ search.queue,
      Function.update depth next (depth node + 1) a = depth a := fun a ha =>
    Function.update_of_ne (fun heq : a = next => hfresh (heq ▸ ha)) _ _
  have hnew : Function.update depth next (depth node + 1) next =
      depth node + 1 := Function.update_self next _ depth
  have hprevious : ∀ a, a ≠ next →
      (search.enter (.after node) next).previous a = search.previous a :=
    fun a ha => Function.update_of_ne ha _ _
  have hentered : (search.enter (.after node) next).previous next =
      .after node := Function.update_self next _ search.previous
  have hhead : (search.queue ++ [next])[search.head]? = some node := by
    rw [List.getElem?_append_left hlt, hnode]
  have htake : (search.queue ++ [next]).take search.head =
      search.queue.take search.head := List.take_append_of_le_length h.within
  refine ⟨Function.update depth next (depth node + 1), hold, hnew, ?_⟩
  constructor
  case seen =>
    intro a
    rw [show (search.enter (.after node) next).queue = search.queue ++ [next]
      from rfl, List.mem_append, List.mem_singleton]
    by_cases ha : a = next
    · rw [ha, hentered]
      simp
    · rw [hprevious a ha, h.seen a]
      simp [ha]
  case nodup =>
    exact h.nodup.append (List.nodup_singleton next)
      (List.disjoint_singleton.mpr hfresh)
  case inside =>
    intro a ha
    rcases List.mem_append.mp ha with ha | ha
    · exact h.inside ha
    · rw [List.mem_singleton.mp ha]
      exact hcell
  case within =>
    exact Nat.le_trans h.within (by simp [Search.enter])
  case start =>
    intro a ha
    by_cases hnext : a = next
    · rw [hnext, hentered] at ha
      cases ha
    · rw [hprevious a hnext] at ha
      obtain ⟨hstart, hdepth⟩ := h.start a ha
      exact ⟨hstart, by rw [hold a (h.begun a hstart).1, hdepth]⟩
  case parent =>
    intro a parent ha
    by_cases hsame : a = next
    · rw [hsame, hentered] at ha
      cases ha
      rw [hsame, hold node hmem, hnew]
      exact ⟨List.mem_append_left _ hmem, hnext, rfl⟩
    · rw [hprevious a hsame] at ha
      obtain ⟨hparent, hjoined, hdepth⟩ := h.parent a parent ha
      have hqueue : a ∈ search.queue := by
        rw [← h.seen, ha]
        simp
      rw [hold a hqueue, hold parent hparent]
      exact ⟨List.mem_append_left _ hparent, hjoined, hdepth⟩
  case begun =>
    intro a ha
    obtain ⟨hqueue, hdepth⟩ := h.begun a ha
    exact ⟨List.mem_append_left _ hqueue, by rw [hold a hqueue, hdepth]⟩
  case sorted =>
    apply List.pairwise_append.mpr
    refine ⟨?_, List.pairwise_singleton _ _, ?_⟩
    · apply h.sorted.imp_of_mem
      intro a b ha hb hle
      rw [hold a ha, hold b hb]
      exact hle
    · intro a ha b hb
      rw [List.mem_singleton.mp hb, hold a ha, hnew]
      exact h.near node hnode a ha
  case low =>
    intro i a ha
    by_cases hi : i < search.queue.length
    · rw [show (search.enter (.after node) next).queue =
        search.queue ++ [next] from rfl, List.getElem?_append_left hi] at ha
      rw [hold a (List.mem_of_getElem? ha)]
      exact h.low i a ha
    · have hlast := (List.getElem?_eq_some_iff.mp ha).1
      have ha' : a = next := by
        rw [show (search.enter (.after node) next).queue =
          search.queue ++ [next] from rfl,
          List.getElem?_append_right (Nat.le_of_not_lt hi)] at ha
        exact List.mem_singleton.mp (List.mem_of_getElem? ha)
      rw [ha', hnew]
      have := h.low search.head node hnode
      omega
  case near =>
    intro other hother a ha
    obtain rfl : node = other := Option.some.inj (hhead.symm.trans hother)
    rw [hold node hmem]
    rcases List.mem_append.mp ha with ha | ha
    · rw [hold a ha]
      exact h.near node hnode a ha
    · rw [List.mem_singleton.mp ha, hnew]
  case closed =>
    intro a ha b hb
    rw [show (search.enter (.after node) next).queue.take
      (search.enter (.after node) next).head = search.queue.take search.head
      from htake] at ha
    obtain ⟨hqueue, hdepth⟩ := h.closed a ha b hb
    rw [hold b hqueue, hold a (List.mem_of_mem_take ha)]
    exact ⟨List.mem_append_left _ hqueue, hdepth⟩

/-- Visiting the nodes next to the one whose turn it is. -/
theorem Sound.visits {node : A} (hnexts : nexts node ⊆ cells) :
    ∀ (list : List A), list ⊆ nexts node → ∀ {depth : A → Nat}
      {now : Unit × Search A},
      Sound starts cells nexts joined depth now.2 →
      now.2.queue[now.2.head]? = some node →
      ∃ depth', Sound starts cells nexts joined depth'
          (list.foldl (visit (plain joined) node) now).2 ∧
        (∃ more, (list.foldl (visit (plain joined) node) now).2.queue =
          now.2.queue ++ more) ∧
        (list.foldl (visit (plain joined) node) now).2.head = now.2.head ∧
        (∀ a ∈ now.2.queue, depth' a = depth a) ∧
        ∀ next ∈ list, joined node next = true →
          next ∈ (list.foldl (visit (plain joined) node) now).2.queue := by
  intro list
  induction list with
  | nil =>
      intro _ depth now h _
      exact ⟨depth, h, ⟨[], (List.append_nil _).symm⟩, rfl, fun _ _ => rfl,
        fun _ hnext => nomatch hnext⟩
  | cons next rest ih =>
      intro hlist depth now h hnode
      have hmem : next ∈ nexts node := hlist List.mem_cons_self
      have hrest : rest ⊆ nexts node := fun _ hother =>
        hlist (List.mem_cons_of_mem _ hother)
      obtain ⟨depth₁, h₁, ⟨more₁, hmore₁⟩, hhead₁, hold₁, hin₁⟩ :
          ∃ depth₁, Sound starts cells nexts joined depth₁
              (visit (plain joined) node now next).2 ∧
            (∃ more, (visit (plain joined) node now next).2.queue =
              now.2.queue ++ more) ∧
            (visit (plain joined) node now next).2.head = now.2.head ∧
            (∀ a ∈ now.2.queue, depth₁ a = depth a) ∧
            (joined node next = true →
              next ∈ (visit (plain joined) node now next).2.queue) := by
        by_cases hunseen : now.2.previous next = .unseen
        · rw [visit, if_pos hunseen]
          dsimp only [plain]
          cases hjoined : joined node next with
          | true =>
              obtain ⟨depth₁, hold, -, hsound⟩ := h.enter hnode
                ⟨hmem, hjoined⟩ (hnexts hmem) hunseen
              exact ⟨depth₁, hsound, ⟨[next], rfl⟩, rfl, hold, fun _ =>
                List.mem_append_right _ List.mem_cons_self⟩
          | false =>
              exact ⟨depth, h, ⟨[], (List.append_nil _).symm⟩, rfl,
                fun _ _ => rfl, fun hfalse => nomatch hfalse⟩
        · rw [visit, if_neg hunseen]
          exact ⟨depth, h, ⟨[], (List.append_nil _).symm⟩, rfl,
            fun _ _ => rfl, fun _ => (h.seen next).mp hunseen⟩
      have hnode₁ : (visit (plain joined) node now next).2.queue[
          (visit (plain joined) node now next).2.head]? = some node := by
        rw [hmore₁, hhead₁, List.getElem?_append_left
          (List.getElem?_eq_some_iff.mp hnode).1, hnode]
      obtain ⟨depth₂, h₂, ⟨more₂, hmore₂⟩, hhead₂, hold₂, hin₂⟩ :=
        ih hrest h₁ hnode₁
      rw [List.foldl_cons]
      refine ⟨depth₂, h₂, ⟨more₁ ++ more₂, ?_⟩, hhead₂.trans hhead₁, ?_, ?_⟩
      · rw [hmore₂, hmore₁, List.append_assoc]
      · intro a ha
        rw [hold₂ a (hmore₁ ▸ List.mem_append_left _ ha), hold₁ a ha]
      · intro other hother hjoined
        rcases List.mem_cons.mp hother with rfl | hother
        · rw [hmore₂]
          exact List.mem_append_left _ (hin₁ hjoined)
        · exact hin₂ other hother hjoined

/-- One turn that does not end the search. -/
theorem Sound.turn (h : Sound starts cells nexts joined depth search)
    (hmissed : Missed goal search) {node : A}
    (hnode : search.queue[search.head]? = some node)
    (hnexts : nexts node ⊆ cells) (hgoal : goal node = false) :
    ∃ depth', Sound starts cells nexts joined depth'
        ((nexts node).foldl (visit (plain joined) node) ((), search)).2.turned ∧
      Missed goal
        ((nexts node).foldl (visit (plain joined) node) ((), search)).2.turned ∧
      ((nexts node).foldl (visit (plain joined) node)
        ((), search)).2.turned.head = search.head + 1 := by
  obtain ⟨depth', hsound, ⟨more, hmore⟩, hhead, hold, hin⟩ :=
    @Sound.visits A _ starts cells nexts joined node hnexts (nexts node)
      (fun _ hnext => hnext) depth ((), search) h hnode
  generalize ((nexts node).foldl (visit (plain joined) node) ((), search)).2 =
    later at *
  dsimp only at hmore hhead
  have hlt : search.head < search.queue.length :=
    (List.getElem?_eq_some_iff.mp hnode).1
  have hnode' : later.queue[later.head]? = some node := by
    rw [hmore, hhead, List.getElem?_append_left hlt, hnode]
  have htake : later.queue.take (later.head + 1) =
      search.queue.take search.head ++ [node] := by
    rw [List.take_add_one, hnode', hmore, hhead,
      List.take_append_of_le_length h.within]
    rfl
  refine ⟨depth', ?_, ?_, congrArg (· + 1) hhead⟩
  · constructor
    case seen => exact hsound.seen
    case nodup => exact hsound.nodup
    case inside => exact hsound.inside
    case within => exact (List.getElem?_eq_some_iff.mp hnode').1
    case start => exact hsound.start
    case parent => exact hsound.parent
    case begun => exact hsound.begun
    case sorted => exact hsound.sorted
    case low => exact hsound.low
    case near =>
      intro other hother a ha
      have hle : depth' node ≤ depth' other := by
        obtain ⟨hi, hget⟩ := List.getElem?_eq_some_iff.mp hnode'
        obtain ⟨hj, hget'⟩ := List.getElem?_eq_some_iff.mp hother
        rw [← hget, ← hget']
        exact List.pairwise_iff_getElem.mp hsound.sorted _ _ hi hj
          (Nat.lt_succ_self _)
      exact Nat.le_trans (hsound.near node hnode' a ha) (Nat.succ_le_succ hle)
    case closed =>
      intro a ha b hb
      change a ∈ later.queue.take (later.head + 1) at ha
      rw [htake, List.mem_append, List.mem_singleton] at ha
      rcases ha with ha | rfl
      · apply hsound.closed a _ b hb
        rw [hmore, hhead, List.take_append_of_le_length h.within]
        exact ha
      · have hb' := hin b hb.1 hb.2
        exact ⟨hb', hsound.near a hnode' b hb'⟩
  · intro a ha
    change a ∈ later.queue.take (later.head + 1) at ha
    rw [htake, List.mem_append, List.mem_singleton] at ha
    rcases ha with ha | rfl
    · exact hmissed a ha
    · exact hgoal

/-- What a search that went on for so many turns has found. -/
theorem Sound.run (hcells : ∀ node ∈ cells, nexts node ⊆ cells)
    (turns : Nat) : ∀ {depth : A → Nat} {search : Search A},
      Sound starts cells nexts joined depth search → Missed goal search →
      ∃ (depth' : A → Nat) (outcome : Outcome A) (last : Search A),
        BreadthFirst.search goal nexts (plain joined) turns ((), search) =
          (outcome, (), last) ∧
        Sound starts cells nexts joined depth' last ∧ Missed goal last ∧
        (outcome = .running → last.head = search.head + turns) ∧
        (outcome = .exhausted → last.queue[last.head]? = none) ∧
        ∀ node, outcome = .found node →
          last.queue[last.head]? = some node ∧ goal node = true := by
  induction turns with
  | zero =>
      intro depth search h hmissed
      exact ⟨depth, .running, search, rfl, h, hmissed, fun _ => rfl,
        fun hend => (nomatch hend), fun _ hend => (nomatch hend)⟩
  | succ turns ih =>
      intro depth search h hmissed
      cases hhead : search.queue[search.head]? with
      | none =>
          refine ⟨depth, .exhausted, search, ?_, h, hmissed,
            fun hend => (nomatch hend), fun _ => hhead,
            fun _ hend => (nomatch hend)⟩
          rw [BreadthFirst.search, hhead]
      | some node =>
          cases hgoal : goal node with
          | true =>
              refine ⟨depth, .found node, search, ?_, h, hmissed,
                fun hend => (nomatch hend), fun hend => (nomatch hend), ?_⟩
              · rw [BreadthFirst.search, hhead]
                exact if_pos hgoal
              · rintro other hother
                cases hother
                exact ⟨hhead, hgoal⟩
          | false =>
              have hcell := h.inside (List.mem_of_getElem? hhead)
              obtain ⟨depth', hsound, hmissed', hturned⟩ :=
                h.turn hmissed hhead (hcells node hcell) hgoal
              obtain ⟨depth'', outcome, last, hsearch, hlast, hlastMissed,
                hrunning, hends⟩ := ih hsound hmissed'
              refine ⟨depth'', outcome, last, ?_, hlast, hlastMissed, ?_,
                hends⟩
              · rw [BreadthFirst.search, hhead]
                dsimp only
                rw [hgoal, if_neg Bool.false_ne_true]
                exact hsearch
              · intro hrun
                rw [hrunning hrun, hturned]
                omega

omit [DecidableEq A] in
/-- The climb from an entered node leads to a start, in as many edges as its
depth. -/
theorem Sound.climb (h : Sound starts cells nexts joined depth search)
    (steps : Nat) : ∀ a ∈ search.queue, depth a < steps →
      (climb search.previous steps a).length = depth a + 1 ∧
        (climb search.previous steps a).head? = some a ∧
        (∃ node ∈ starts,
          (climb search.previous steps a).getLast? = some node) ∧
        (climb search.previous steps a).IsChain
          fun x y => Joined nexts joined y x := by
  induction steps with
  | zero => exact fun a _ hlt => absurd hlt (Nat.not_lt_zero _)
  | succ steps ih =>
      intro a ha hlt
      rw [BreadthFirst.climb]
      cases hmark : search.previous a with
      | unseen => exact absurd hmark ((h.seen a).mpr ha)
      | start =>
          obtain ⟨hstart, hdepth⟩ := h.start a hmark
          refine ⟨by rw [hdepth]; rfl, rfl, ⟨a, hstart, rfl⟩, ?_⟩
          exact List.isChain_singleton a
      | after parent =>
          obtain ⟨hparent, hjoined, hdepth⟩ := h.parent a parent hmark
          obtain ⟨hlength, hhead, ⟨node, hnode, hlast⟩, hchain⟩ :=
            ih parent hparent (by omega)
          dsimp only
          refine ⟨by rw [List.length_cons, hlength, hdepth], rfl,
            ⟨node, hnode, ?_⟩, ?_⟩
          · rw [List.getLast?_cons, hlast, Option.getD_some]
          · apply List.IsChain.cons hchain
            intro b hb
            rw [hhead] at hb
            rw [← Option.some.inj hb]
            exact hjoined

omit [DecidableEq A] in
/-- Every route that starts in the queue passes the nodes whose turn is to
come, no deeper there than it is long. -/
theorem Sound.meets (h : Sound starts cells nexts joined depth search)
    (hmissed : Missed goal search) :
    ∀ (route : List A) (a : A) (edges : Nat), a ∈ search.queue →
      depth a ≤ edges → (a :: route).IsChain (Joined nexts joined) →
      (∃ node, (a :: route).getLast? = some node ∧ goal node = true) →
      ∃ b ∈ search.queue.drop search.head, depth b ≤ edges + route.length := by
  intro route
  induction route with
  | nil =>
      intro a edges ha hdepth _ ⟨node, hlast, hgoal⟩
      obtain rfl : a = node := Option.some.inj hlast
      rw [← List.take_append_drop search.head search.queue,
        List.mem_append] at ha
      rcases ha with ha | ha
      · rw [hmissed a ha] at hgoal
        exact nomatch hgoal
      · exact ⟨a, ha, hdepth⟩
  | cons next rest ih =>
      intro a edges ha hdepth hchain hends
      rw [← List.take_append_drop search.head search.queue,
        List.mem_append] at ha
      rcases ha with ha | ha
      · obtain ⟨hjoined, hrest⟩ := List.isChain_cons_cons.mp hchain
        obtain ⟨hnext, hle⟩ := h.closed a ha next hjoined
        rw [List.getLast?_cons_cons] at hends
        obtain ⟨b, hb, hbdepth⟩ := ih next (edges + 1) hnext (by omega) hrest
          hends
        refine ⟨b, hb, ?_⟩
        rw [List.length_cons]
        omega
      · exact ⟨a, ha, Nat.le_trans hdepth (Nat.le_add_right _ _)⟩

omit [DecidableEq A] in
theorem Sound.route_meets (h : Sound starts cells nexts joined depth search)
    (hmissed : Missed goal search) {route : List A}
    (hroute : Route starts goal nexts joined route) :
    ∃ b ∈ search.queue.drop search.head, depth b + 1 ≤ route.length := by
  obtain ⟨⟨node, hnode, hhead⟩, hchain, hends⟩ := hroute
  cases route with
  | nil => exact nomatch hhead
  | cons a rest =>
      obtain rfl : a = node := Option.some.inj hhead
      obtain ⟨hqueue, hdepth⟩ := h.begun a hnode
      obtain ⟨b, hb, hle⟩ := h.meets hmissed rest a 0 hqueue
        (Nat.le_of_eq hdepth) hchain hends
      refine ⟨b, hb, ?_⟩
      rw [List.length_cons]
      omega

omit [DecidableEq A] in
/-- The queue never holds more than the cells. -/
theorem Sound.bounded (h : Sound starts cells nexts joined depth search) :
    search.queue.length ≤ cells.length :=
  (List.subperm_of_subset h.nodup h.inside).length_le

/-! ### The search from its starts -/

variable (hnodup : starts.Nodup) (hstarts : starts ⊆ cells)
  (hcells : ∀ node ∈ cells, nexts node ⊆ cells) (turns : Nat)

include hnodup hstarts hcells in
theorem search_cases :
    ∃ (depth : A → Nat) (outcome : Outcome A) (last : Search A),
      BreadthFirst.search goal nexts (plain joined) turns
        ((), initial starts) = (outcome, (), last) ∧
      Sound starts cells nexts joined depth last ∧ Missed goal last ∧
      (outcome = .running → last.head = turns) ∧
      (outcome = .exhausted → last.queue[last.head]? = none) ∧
      ∀ node, outcome = .found node →
        last.queue[last.head]? = some node ∧ goal node = true := by
  have hmissed : Missed goal (initial starts) := by
    intro a ha
    rw [initial_eq] at ha
    simp at ha
  obtain ⟨depth, outcome, last, hsearch, hsound, hmiss, hrun, hends⟩ :=
    (Sound.initial hnodup hstarts).run hcells turns hmissed
  refine ⟨depth, outcome, last, hsearch, hsound, hmiss, ?_, hends⟩
  intro hrunning
  rw [hrun hrunning, initial_eq]
  exact Nat.zero_add turns

include hnodup hstarts hcells in
theorem search_bounded :
    (BreadthFirst.search goal nexts (plain joined) turns
      ((), initial starts)).2.2.queue.length ≤ cells.length := by
  obtain ⟨depth, outcome, last, hsearch, hsound, -⟩ :=
    @search_cases A _ starts cells goal nexts joined hnodup hstarts hcells
      turns
  rw [hsearch]
  exact hsound.bounded

include hnodup hstarts hcells in
/-- One turn for each cell, and one more, end the search. -/
theorem search_ends (hturns : cells.length < turns) :
    (BreadthFirst.search goal nexts (plain joined) turns
      ((), initial starts)).1 ≠ .running := by
  obtain ⟨depth, outcome, last, hsearch, hsound, -, hrun, -⟩ :=
    @search_cases A _ starts cells goal nexts joined hnodup hstarts hcells
      turns
  rw [hsearch]
  intro hrunning
  have hhead := hrun hrunning
  have := hsound.within
  have := hsound.bounded
  omega

include hnodup hstarts hcells in
/-- A search that ends without a goal proves that no route exists. -/
theorem search_exhausted
    (h : (BreadthFirst.search goal nexts (plain joined) turns
      ((), initial starts)).1 = .exhausted) (route : List A) :
    ¬ Route starts goal nexts joined route := by
  obtain ⟨depth, outcome, last, hsearch, hsound, hmissed, -, hend, -⟩ :=
    @search_cases A _ starts cells goal nexts joined hnodup hstarts hcells
      turns
  rw [hsearch] at h
  intro hroute
  obtain ⟨b, hb, -⟩ := hsound.route_meets hmissed hroute
  have hlength := List.getElem?_eq_none_iff.mp (hend h)
  rw [List.drop_eq_nil_of_le hlength] at hb
  exact nomatch hb

include hnodup hstarts hcells in
/-- The climb from the goal that is found is a route, and none is shorter. -/
theorem search_found {node : A}
    (h : (BreadthFirst.search goal nexts (plain joined) turns
      ((), initial starts)).1 = .found node) :
    Route starts goal nexts joined
        (BreadthFirst.climb (BreadthFirst.search goal nexts (plain joined)
          turns ((), initial starts)).2.2.previous cells.length node).reverse ∧
      ∀ route, Route starts goal nexts joined route →
        (BreadthFirst.climb (BreadthFirst.search goal nexts (plain joined)
          turns ((), initial starts)).2.2.previous cells.length node).length ≤
            route.length := by
  obtain ⟨depth, outcome, last, hsearch, hsound, hmissed, -, -, hfound⟩ :=
    @search_cases A _ starts cells goal nexts joined hnodup hstarts hcells
      turns
  rw [hsearch] at h ⊢
  obtain ⟨hnode, hgoal⟩ := hfound node h
  obtain ⟨hlt, hget⟩ := List.getElem?_eq_some_iff.mp hnode
  have hdepth : depth node < cells.length :=
    Nat.lt_of_le_of_lt (hsound.low _ node hnode)
      (Nat.lt_of_lt_of_le hlt hsound.bounded)
  obtain ⟨hlength, hhead, ⟨start, hstart, hlast⟩, hchain⟩ :=
    hsound.climb cells.length node (List.mem_of_getElem? hnode) hdepth
  constructor
  · constructor
    case start =>
      refine ⟨start, hstart, ?_⟩
      rw [List.head?_reverse]
      exact hlast
    case edges => exact List.isChain_reverse.mpr hchain
    case goal =>
      refine ⟨node, ?_, hgoal⟩
      rw [List.getLast?_reverse]
      exact hhead
  · intro route hroute
    obtain ⟨b, hb, hle⟩ := hsound.route_meets hmissed hroute
    have hfirst : depth node ≤ depth b := by
      rw [List.drop_eq_getElem_cons hlt, hget, List.mem_cons] at hb
      rcases hb with rfl | hb
      · exact Nat.le_refl _
      · have hsorted := hsound.sorted
        rw [← List.take_append_drop last.head last.queue,
          List.drop_eq_getElem_cons hlt, hget] at hsorted
        exact List.rel_of_pairwise_cons (List.pairwise_append.mp hsorted).2.1 hb
    dsimp only
    rw [hlength]
    omega

end Search

end AiTeam.BreadthFirst
