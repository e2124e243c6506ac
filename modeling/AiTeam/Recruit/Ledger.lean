/-
The employees and the orders of an enterprise that every statement leaves in
order, as long as no employee goes that a succeeded order names.
-/
import AiTeam.Recruit.Service

namespace AiTeam.Recruit

/-- A slug that its key ends with, whatever the template. -/
def Plain (slug : String) : Prop := ':' ∉ slug.toList

instance (slug : String) : Decidable (Plain slug) :=
  inferInstanceAs (Decidable (¬ _))

theorem split_last {α : Type} {mark : α} {front front' back back' : List α}
    (hback : mark ∉ back) (hback' : mark ∉ back')
    (h : front ++ mark :: back = front' ++ mark :: back') :
    front = front' ∧ back = back' := by
  rcases List.append_eq_append_iff.mp h with ⟨between, hfront, hrest⟩ |
    ⟨between, hfront, hrest⟩
  · cases between with
    | nil => simp_all
    | cons head tail =>
        rw [List.cons_append, List.cons.injEq] at hrest
        exact absurd (by simp [hrest.2]) hback
  · cases between with
    | nil => simp_all
    | cons head tail =>
        rw [List.cons_append, List.cons.injEq] at hrest
        exact absurd (by simp [hrest.2]) hback'

variable {templateId : String} {employees : List Employee} {orders : List Order}

theorem idempotencyKey_inj {templateId' slug slug' : String}
    (hslug : Plain slug) (hslug' : Plain slug')
    (h : idempotencyKey templateId slug = idempotencyKey templateId' slug') :
    templateId = templateId' ∧ slug = slug' := by
  have hlist := congrArg String.toList h
  simp only [idempotencyKey, String.toList_append, List.append_assoc,
    List.append_cancel_left_eq] at hlist
  obtain ⟨hfront, hback⟩ := split_last hslug hslug' hlist
  exact ⟨String.toList_injective hfront, String.toList_injective hback⟩

/-! ### Employees -/

structure People (employees : List Employee) (next : Nat) : Prop where
  ids : Keyed Employee.id employees
  slugs : Keyed Employee.slug employees
  fresh : ∀ employee ∈ employees, employee.id < next
  /-- At most one live employee comes from a template. -/
  live : ∀ left ∈ employees, ∀ right ∈ employees, left.live → right.live →
    ∀ templateId, left.sourceTemplateId = some templateId →
    right.sourceTemplateId = some templateId → left = right

/-- The employees of one table are still there in the other, under their ids
and slugs. -/
def Remain (employees employees' : List Employee) : Prop :=
  ∀ employee ∈ employees, ∃ same ∈ employees',
    same.id = employee.id ∧ same.slug = employee.slug

theorem Remain.append (employees added : List Employee) :
    Remain employees (employees ++ added) := fun employee hmem =>
  ⟨employee, List.mem_append_left _ hmem, rfl, rfl⟩

theorem Remain.rfl : Remain employees employees :=
  fun employee hmem => ⟨employee, hmem, Eq.refl _, Eq.refl _⟩

theorem Remain.setStatus (employees : List Employee) (id : Nat)
    (status : EmployeeStatus) :
    Remain employees (updateWhere (fun row => row.id = id)
      (fun row => { row with status }) employees) := by
  intro employee hmem
  refine ⟨_, List.mem_map_of_mem hmem, ?_⟩
  split <;> exact ⟨Eq.refl _, Eq.refl _⟩

theorem getBySourceTemplate_none {db : Db}
    (h : getBySourceTemplate templateId db = none) {employee : Employee}
    (hmem : employee ∈ db.employees) (hlive : employee.live = true) :
    employee.sourceTemplateId ≠ some templateId := by
  intro hsource
  have hfound := List.find?_eq_none.mp h employee hmem
  simp [hsource, hlive] at hfound

theorem getBySourceTemplate_some {db : Db} {employee : Employee}
    (h : getBySourceTemplate templateId db = some employee) :
    employee ∈ db.employees ∧ employee.live = true ∧
      employee.sourceTemplateId = some templateId := by
  have hfound := List.find?_some h
  simp only [Bool.and_eq_true, decide_eq_true_eq] at hfound
  exact ⟨List.mem_of_find?_eq_some h, hfound.2, hfound.1⟩

/-- A new row under a free slug, of a template without live employee. -/
theorem People.append {next : Nat} (h : People employees next) {row : Employee}
    (hid : row.id = next)
    (hslug : lookup Employee.slug row.slug employees = none)
    (hsource : ∀ templateId, row.sourceTemplateId = some templateId →
      ∀ other ∈ employees, other.live = true →
      other.sourceTemplateId ≠ some templateId) :
    People (employees ++ [row]) (next + 1) where
  ids := by
    refine h.ids.append ?_
    rw [lookup, List.find?_eq_none]
    intro other hother
    have hlt := h.fresh other hother
    simp only [decide_eq_true_eq]
    omega
  slugs := h.slugs.append hslug
  fresh := by
    intro other hother
    rcases List.mem_append.mp hother with hold | hnew
    · exact Nat.lt_succ_of_lt (h.fresh other hold)
    · rw [List.mem_singleton.mp hnew, hid]
      exact Nat.lt_succ_self next
  live := by
    intro left hleft right hright hl hr templateId hsl hsr
    rcases List.mem_append.mp hleft with hleft | hleft <;>
      rcases List.mem_append.mp hright with hright | hright
    · exact h.live left hleft right hright hl hr templateId hsl hsr
    · rw [List.mem_singleton.mp hright] at hsr
      exact absurd hsl (hsource templateId hsr left hleft hl)
    · rw [List.mem_singleton.mp hleft] at hsl
      exact absurd hsr (hsource templateId hsl right hright hr)
    · rw [List.mem_singleton.mp hleft, List.mem_singleton.mp hright]

/-- A row that is archived or that was live before. -/
theorem People.setStatus {next id : Nat} {status : EmployeeStatus}
    (h : People employees next)
    (hlive : status = .archived ∨
      ∀ row ∈ employees, row.id = id → row.live = true) :
    People (updateWhere (fun row => row.id = id)
      (fun row => { row with status }) employees) next where
  ids := h.ids.updateWhere _ _ fun _ => rfl
  slugs := h.slugs.updateWhere _ _ fun _ => rfl
  fresh := by
    intro row hrow
    obtain ⟨old, hold, rfl⟩ := List.mem_map.mp hrow
    have hlt := h.fresh old hold
    split <;> exact hlt
  live := by
    -- a live row was live before it was changed
    have hbefore : ∀ old ∈ employees, Employee.live (if decide (old.id = id)
        then { old with status } else old) = true → old.live = true := by
      intro old hold hl
      by_cases hid : old.id = id
      · rcases hlive with harchived | hwas
        · simp [hid, harchived, Employee.live] at hl
        · exact hwas old hold hid
      · simpa [hid] using hl
    have hsame : ∀ old : Employee, (if decide (old.id = id)
        then { old with status } else old).sourceTemplateId =
          old.sourceTemplateId := by
      intro old
      split <;> rfl
    intro left hleft right hright hl hr templateId hsl hsr
    obtain ⟨left, hwasl, rfl⟩ := List.mem_map.mp hleft
    obtain ⟨right, hwasr, rfl⟩ := List.mem_map.mp hright
    rw [hsame] at hsl hsr
    rw [h.live left hwasl right hwasr (hbefore left hwasl hl)
      (hbefore right hwasr hr) templateId hsl hsr]

theorem People.filter {next : Nat} (h : People employees next)
    (keep : Employee → Bool) :
    People (employees.filter keep) next where
  ids := h.ids.filter keep
  slugs := h.slugs.filter keep
  fresh := fun employee hmem => h.fresh employee (List.mem_filter.mp hmem).1
  live := fun left hleft right hright =>
    h.live left (List.mem_filter.mp hleft).1 right
      (List.mem_filter.mp hright).1

theorem People.mono {next next' : Nat} (h : People employees next)
    (hle : next ≤ next') : People employees next' :=
  { h with fresh := fun employee hmem =>
      Nat.lt_of_lt_of_le (h.fresh employee hmem) hle }

/-! ### Orders -/

/-- The employee a succeeded order names. -/
def Fulfilled (employees : List Employee) (order : Order) : Prop :=
  ∃ employee ∈ employees, order.createdEmployeeId = some employee.id ∧
    order.idempotencyKey = idempotencyKey order.templateId employee.slug

structure Ledger (employees : List Employee) (orders : List Order)
    (next : Nat) : Prop where
  ids : Keyed Order.id orders
  keys : Keyed Order.idempotencyKey orders
  fresh : ∀ order ∈ orders, order.id < next
  named : ∀ order ∈ orders, ∃ slug, Plain slug ∧
    order.idempotencyKey = idempotencyKey order.templateId slug
  statuses : ∀ order ∈ orders, order.status = .provisioning ∨
    order.status = .succeeded ∨ order.status = .failed
  succeeded : ∀ order ∈ orders, order.status = .succeeded →
    Fulfilled employees order

theorem Fulfilled.remain {employees' : List Employee} {order : Order}
    (h : Fulfilled employees order) (hremain : Remain employees employees') :
    Fulfilled employees' order := by
  obtain ⟨employee, hmem, hcreated, hkey⟩ := h
  obtain ⟨same, hsame, hid, hslug⟩ := hremain employee hmem
  exact ⟨same, hsame, by rw [hid, hcreated], by rw [hslug, hkey]⟩

theorem Ledger.remain {employees' : List Employee} {next next' : Nat}
    (h : Ledger employees orders next) (hremain : Remain employees employees')
    (hle : next ≤ next') : Ledger employees' orders next' :=
  { h with
    fresh := fun order hmem => Nat.lt_of_lt_of_le (h.fresh order hmem) hle
    succeeded := fun order hmem hdone =>
      (h.succeeded order hmem hdone).remain hremain }

/-- The orders that are running or done, apart from one, are as they were. -/
structure Keeps (own : Nat → Prop) (orders orders' : List Order) : Prop where
  kept : ∀ order ∈ orders, order.status = .provisioning ∨
    order.status = .succeeded → ¬ own order.id → order ∈ orders'
  running : ∀ order ∈ orders', order.status = .provisioning →
    ¬ own order.id → order ∈ orders

theorem Keeps.rfl {own : Nat → Prop} : Keeps own orders orders :=
  ⟨fun _ hmem _ _ => hmem, fun _ hmem _ _ => hmem⟩

theorem Keeps.trans {own own' : Nat → Prop} {first second third : List Order}
    (h : Keeps own first second) (h' : Keeps own' second third) :
    Keeps (fun id => own id ∨ own' id) first third where
  kept := fun order hmem hstatus hnot =>
    h'.kept order (h.kept order hmem hstatus fun hown => hnot (Or.inl hown))
      hstatus fun hown => hnot (Or.inr hown)
  running := fun order hmem hstatus hnot =>
    h.running order (h'.running order hmem hstatus fun hown =>
      hnot (Or.inr hown)) hstatus fun hown => hnot (Or.inl hown)

/-- A row that is changed under its id, key and template. -/
theorem Ledger.updateWhere {next : Nat} (h : Ledger employees orders next)
    (id : Nat) (change : Order → Order) (hid : ∀ row, (change row).id = row.id)
    (hkey : ∀ row, (change row).idempotencyKey = row.idempotencyKey)
    (htemplate : ∀ row, (change row).templateId = row.templateId)
    (hstatus : ∀ row ∈ orders, row.id = id →
      (change row).status = .provisioning ∨ (change row).status = .failed ∨
      (change row).status = .succeeded ∧ Fulfilled employees (change row)) :
    Ledger employees (updateWhere (fun row => row.id = id) change orders)
      next where
  ids := h.ids.updateWhere _ _ hid
  keys := h.keys.updateWhere _ _ hkey
  fresh := by
    intro order hmem
    obtain ⟨old, hold, rfl⟩ := List.mem_map.mp hmem
    have hlt := h.fresh old hold
    split
    · rw [hid]
      exact hlt
    · exact hlt
  named := by
    intro order hmem
    obtain ⟨old, hold, rfl⟩ := List.mem_map.mp hmem
    have hnamed := h.named old hold
    split
    · rw [hkey, htemplate]
      exact hnamed
    · exact hnamed
  statuses := by
    intro order hmem
    obtain ⟨old, hold, rfl⟩ := List.mem_map.mp hmem
    split
    · next hguard =>
        rcases hstatus old hold (by simpa using hguard) with hs | hs | hs
        · exact Or.inl hs
        · exact Or.inr (Or.inr hs)
        · exact Or.inr (Or.inl hs.1)
    · exact h.statuses old hold
  succeeded := by
    intro order hmem hdone
    obtain ⟨old, hold, rfl⟩ := List.mem_map.mp hmem
    by_cases hguard : old.id = id
    · simp only [hguard, decide_true, if_true] at hdone ⊢
      rcases hstatus old hold hguard with hs | hs | hs
      · rw [hs] at hdone
        contradiction
      · rw [hs] at hdone
        contradiction
      · exact hs.2
    · simp only [hguard, decide_false, Bool.false_eq_true, if_false] at hdone ⊢
      exact h.succeeded old hold hdone

theorem Keeps.updateWhere {change : Order → Order} (id : Nat)
    (hid : ∀ row, (change row).id = row.id) :
    Keeps (· = id) orders
      (updateWhere (fun row => row.id = id) change orders) where
  kept := by
    intro order hmem _ hnot
    refine List.mem_map.mpr ⟨order, hmem, ?_⟩
    simp [hnot]
  running := by
    intro order hmem _ hnot
    obtain ⟨old, hold, rfl⟩ := List.mem_map.mp hmem
    by_cases hguard : old.id = id
    · rw [if_pos (by simpa using hguard), hid] at hnot
      exact absurd hguard hnot
    · rw [if_neg (by simpa using hguard)]
      exact hold

end AiTeam.Recruit
