/-
A list that is read page by page while it changes: request `page` answers a
page of the list as it is then.
-/
import Mathlib.Data.List.Basic
import AiTeam.Text

namespace AiTeam.Paging

universe u

variable {α : Type u} {size : Nat} {items : List α} {P : α → Prop}

/-- The items of a page; the first page is number one. -/
def pageOf (size page : Nat) (items : List α) : List α :=
  Text.slice items ((page - 1) * size) size

theorem pageOf_length (size page : Nat) (items : List α) :
    (pageOf size page items).length =
      min size (items.length - (page - 1) * size) := by
  rw [pageOf, Text.slice, List.length_take, List.length_drop]

theorem pageOf_full {page : Nat} (hpage : 1 ≤ page)
    (h : page * size ≤ items.length) :
    (pageOf size page items).length = size := by
  obtain ⟨before, rfl⟩ := Nat.exists_eq_add_of_le' hpage
  rw [Nat.succ_mul] at h
  rw [pageOf_length, Nat.add_sub_cancel]
  omega

/-- Whatever is not before a page is on it or beyond it. -/
theorem drop_page {page : Nat} (hpage : 1 ≤ page) (size : Nat)
    (items : List α) :
    items.drop ((page - 1) * size) =
      pageOf size page items ++ items.drop (page * size) := by
  obtain ⟨before, rfl⟩ := Nat.exists_eq_add_of_le' hpage
  rw [pageOf, Text.slice, Nat.add_sub_cancel, Nat.succ_mul, ← List.drop_drop,
    List.take_append_drop]

/-! ### What a reader sees -/

/-- Request `page` answers an item of the kind. -/
def Shown (size : Nat) (moments : Nat → List α) (P : α → Prop)
    (page : Nat) : Prop :=
  ∃ item ∈ pageOf size page (moments page), P item

/-- One of the kind lies beyond page `page` when it is read, and none lies
there when the next page is. -/
def Jumps (size : Nat) (moments : Nat → List α) (P : α → Prop)
    (page : Nat) : Prop :=
  (∃ item ∈ (moments page).drop (page * size), P item) ∧
    ∀ item ∈ (moments (page + 1)).drop (page * size), ¬ P item

variable {moments : Nat → List α} {last : Nat}

/-- What is never shown and never jumps stays beyond the pages that are
read. -/
theorem beyond_of_not_shown (hpresent : ∃ item ∈ moments 1, P item)
    (hshown : ∀ page, 1 ≤ page → page ≤ last → ¬ Shown size moments P page)
    (hjumps : ∀ page, 1 ≤ page → page < last → ¬ Jumps size moments P page)
    {page : Nat} (hfirst : 1 ≤ page) (hlast : page ≤ last) :
    ∃ item ∈ (moments page).drop (page * size), P item := by
  have hahead : ∀ {page}, 1 ≤ page → page ≤ last →
      (∃ item ∈ (moments page).drop ((page - 1) * size), P item) →
      ∃ item ∈ (moments page).drop (page * size), P item := by
    rintro page hfirst hlast ⟨item, hitem, hP⟩
    rw [drop_page hfirst, List.mem_append] at hitem
    rcases hitem with hitem | hitem
    · exact absurd ⟨item, hitem, hP⟩ (hshown page hfirst hlast)
    · exact ⟨item, hitem, hP⟩
  induction page, hfirst using Nat.le_induction with
  | base =>
      apply hahead (Nat.le_refl 1) hlast
      rw [Nat.sub_self, Nat.zero_mul, List.drop_zero]
      exact hpresent
  | succ page hfirst ih =>
      have hbeyond := ih (Nat.le_of_succ_le hlast)
      apply hahead (Nat.le_succ_of_le hfirst) hlast
      by_contra hnone
      apply hjumps page hfirst hlast
      exact ⟨hbeyond, fun item hitem hP => hnone ⟨item, hitem, hP⟩⟩

/-- A reader that reads to the end misses only what jumps over a page
boundary between two requests. -/
theorem jumps_of_not_shown (hlast : 1 ≤ last)
    (hend : (moments last).length ≤ last * size)
    (hpresent : ∃ item ∈ moments 1, P item)
    (hshown : ∀ page, 1 ≤ page → page ≤ last → ¬ Shown size moments P page) :
    ∃ page, 1 ≤ page ∧ page < last ∧ Jumps size moments P page := by
  by_contra hnone
  push Not at hnone
  obtain ⟨item, hitem, -⟩ :=
    beyond_of_not_shown hpresent hshown hnone hlast (Nat.le_refl last)
  rw [List.drop_eq_nil_of_le hend] at hitem
  exact absurd hitem List.not_mem_nil

/-- `count` pages from `page` on, as they are when they are read. -/
def readFrom (size : Nat) (moments : Nat → List α) (page count : Nat) :
    List α :=
  (List.range' page count).flatMap fun page =>
    pageOf size page (moments page)

/-- The pages up to `last`. -/
def readPages (size : Nat) (moments : Nat → List α) (last : Nat) : List α :=
  readFrom size moments 1 last

theorem readFrom_succ (size : Nat) (moments : Nat → List α)
    (page count : Nat) :
    readFrom size moments page (count + 1) =
      pageOf size page (moments page) ++
        readFrom size moments (page + 1) count := by
  rw [readFrom, List.range'_succ, List.flatMap_cons]
  rfl

theorem mem_readPages :
    (∃ item ∈ readPages size moments last, P item) ↔
      ∃ page, 1 ≤ page ∧ page ≤ last ∧ Shown size moments P page := by
  constructor
  · rintro ⟨item, hitem, hP⟩
    obtain ⟨page, hpage, hitem⟩ := List.mem_flatMap.mp hitem
    obtain ⟨hfirst, hlast⟩ := List.mem_range'_1.mp hpage
    exact ⟨page, hfirst, by omega, item, hitem, hP⟩
  · rintro ⟨page, hfirst, hlast, item, hitem, hP⟩
    have hpage : page ∈ List.range' 1 last :=
      List.mem_range'_1.mpr ⟨hfirst, by omega⟩
    exact ⟨item, List.mem_flatMap.mpr ⟨page, hpage, hitem⟩, hP⟩

theorem readPages_succ (size : Nat) (moments : Nat → List α) (last : Nat) :
    readPages size moments (last + 1) =
      readPages size moments last ++
        pageOf size (last + 1) (moments (last + 1)) := by
  simp [readPages, readFrom, List.range'_concat, List.flatMap_append,
    Nat.add_comm]

theorem readPages_full
    (hfull : ∀ page, 1 ≤ page → page ≤ last →
      page * size ≤ (moments page).length) :
    (readPages size moments last).length = last * size := by
  induction last with
  | zero => simp [readPages, readFrom]
  | succ last ih =>
      have hbefore := ih fun page hfirst hpage =>
        hfull page hfirst (Nat.le_succ_of_le hpage)
      rw [readPages_succ, List.length_append, hbefore,
        pageOf_full (Nat.le_add_left 1 last)
          (hfull (last + 1) (Nat.le_add_left 1 last) (Nat.le_refl _)),
        Nat.succ_mul]

/-- A reader that goes on while pages are full and ends where the list does
has read as much as the list is long then, or as the pages before have room
for. -/
theorem readPages_length (hlast : 1 ≤ last)
    (hfull : ∀ page, 1 ≤ page → page < last →
      page * size ≤ (moments page).length)
    (hend : (moments last).length ≤ last * size) :
    (readPages size moments last).length =
      max (moments last).length ((last - 1) * size) := by
  obtain ⟨before, rfl⟩ := Nat.exists_eq_add_of_le' hlast
  have hpages := readPages_full fun page hfirst hpage =>
    hfull page hfirst (Nat.lt_succ_of_le hpage)
  rw [Nat.succ_mul] at hend
  rw [readPages_succ, List.length_append, hpages, pageOf_length,
    Nat.add_sub_cancel]
  omega

end AiTeam.Paging
