-- SUMMARY: Pages are numbered by natural arithmetic, but for one window, whose page a checked sum does not make.
import FederatedJoin.Proofs.PageBounds
import FederatedJoin.Proofs.Traces
import Mathlib.Order.Bounds.Basic

/-!
# Page numbers

A page is numbered by the window it starts at, and its pages are counted by
rounding up. Offsets and sizes come from the request as words, and only one sum
of this arithmetic can leave them: the number of the page of size one that
starts at the greatest word. Where sums are checked, that page is not made, and
where they are not, its number is zero. Every other page is numbered by its
window, and checking the sum changes nothing.
-/

namespace FederatedJoin

namespace Page

/-- The page tells its place: in windows of this size, its number is that of the window in which the
offset lies, counted from one, and it counts as many windows as its total needs. -/
structure Numbered (page : Page) (offset size : Nat) : Prop where
  limit_eq : page.limit.toNat = size
  one_le : 1 ≤ page.number.toNat
  start_le : (page.number.toNat - 1) * size ≤ offset
  lt_end : offset < page.number.toNat * size
  pageCount : IsLeast {n : Nat | page.total.toNat ≤ n * size} page.pageCount.toNat

/-- The one window of which the number is no word. -/
def Unnumbered (offset size : Nat) : Prop := offset = 18446744073709551615 ∧ size = 1

theorem toNat_atLeastOne (limit : UInt64) : (atLeastOne limit).toNat = max limit.toNat 1 := by
  unfold atLeastOne
  split
  · next h =>
    rw [h]
    rfl
  · next h =>
    have hpos : limit.toNat ≠ 0 := fun hzero => h (UInt64.toNat_inj.1 hzero)
    exact (Nat.max_eq_left (Nat.pos_of_ne_zero hpos)).symm

theorem isLeast_windowsFor {size : Nat} (h : size ≠ 0) (rows : Nat) :
    IsLeast {n : Nat | rows ≤ n * size} (Execution.windowsFor rows size) :=
  ⟨Execution.le_windowsFor_mul h rows, fun n hn =>
    Nat.not_lt.1 fun hlt => Nat.not_lt.2 hn ((Execution.lt_windowsFor_iff h n rows).1 hlt)⟩

theorem toNat_number (offset limit : UInt64) : (offset / limit + 1).toNat =
    (offset.toNat / limit.toNat + 1) % 18446744073709551616 := by
  rw [UInt64.toNat_add, UInt64.toNat_div]
  rfl

/-- Windows of more than one row have small numbers. -/
theorem number_lt_iff {offset size : Nat} (hword : offset < 18446744073709551616)
    (hsize : size ≠ 0) :
    offset / size + 1 < 18446744073709551616 ↔ ¬ Unnumbered offset size := by
  unfold Unnumbered
  by_cases hone : size = 1
  · subst hone
    rw [Nat.div_one]
    omega
  · have hhalf : offset / size ≤ offset / 2 := Nat.div_le_div_left (by omega) (by omega)
    exact iff_of_true (by omega) fun h => hone h.2

/-- Without a check, a page is numbered like its window unless the number wraps around. -/
theorem numbered_ofWindow_iff (data : List Record) (total offset limit : UInt64) :
    (ofWindow data total offset limit).Numbered offset.toNat (max limit.toNat 1) ↔
      ¬ Unnumbered offset.toNat (max limit.toNat 1) := by
  have hsize : max limit.toNat 1 ≠ 0 := by omega
  have hlimit := toNat_atLeastOne limit
  have hnumber : (ofWindow data total offset limit).number.toNat =
      (offset.toNat / max limit.toNat 1 + 1) % 18446744073709551616 := by
    rw [← hlimit]
    exact toNat_number offset (atLeastOne limit)
  rw [← number_lt_iff offset.toNat_lt hsize]
  constructor
  · intro hnumbered
    have hpos := hnumbered.one_le
    rw [hnumber] at hpos
    have hle : offset.toNat / max limit.toNat 1 ≤ offset.toNat := Nat.div_le_self ..
    have hword := offset.toNat_lt
    omega
  · intro hlt
    rw [Nat.mod_eq_of_lt hlt] at hnumber
    refine ⟨hlimit, ?_, ?_, ?_, ?_⟩
    · rw [hnumber]
      exact Nat.le_add_left ..
    · rw [hnumber, Nat.add_sub_cancel]
      exact Nat.div_mul_le_self ..
    · rw [hnumber, Nat.add_mul, Nat.one_mul]
      exact Nat.lt_div_mul_add (Nat.pos_of_ne_zero hsize)
    · have hcount : (ofWindow data total offset limit).pageCount.toNat =
          Execution.windowsFor total.toNat (max limit.toNat 1) := by
        rw [← hlimit]
        exact toNat_pagesFor (toNat_atLeastOne_ne_zero limit) total
      rw [hcount]
      exact isLeast_windowsFor hsize total.toNat

/-- With a check, the page is made unless its number is beyond the words. -/
theorem ofWindow?_eq_none_iff (data : List Record) (total offset limit : UInt64) :
    ofWindow? data total offset limit = none ↔
      Unnumbered offset.toNat (max limit.toNat 1) := by
  have hsize : max limit.toNat 1 ≠ 0 := by omega
  have hquotient : (offset / atLeastOne limit).toNat = offset.toNat / max limit.toNat 1 := by
    rw [UInt64.toNat_div, toNat_atLeastOne]
  have hgreatest : Word.greatest.toNat = 18446744073709551615 := rfl
  have hle : offset.toNat / max limit.toNat 1 ≤ offset.toNat := Nat.div_le_self ..
  have hword := offset.toNat_lt
  simp only [ofWindow?, Option.map_eq_none_iff, Word.succ?_eq_none_iff]
  rw [← UInt64.toNat_inj, hquotient, hgreatest, ← not_iff_not, ← number_lt_iff hword hsize]
  omega

theorem eq_ofWindow_of_ofWindow? {data : List Record} {total offset limit : UInt64} {page : Page}
    (h : ofWindow? data total offset limit = some page) :
    page = ofWindow data total offset limit := by
  obtain ⟨number, hnumber, rfl⟩ := Option.map_eq_some_iff.1 h
  rw [Word.eq_add_one_of_succ? hnumber]
  rfl

theorem ofWindow?_eq_some {data : List Record} {total offset limit : UInt64}
    (h : ¬ Unnumbered offset.toNat (max limit.toNat 1)) :
    ofWindow? data total offset limit = some (ofWindow data total offset limit) := by
  obtain ⟨page, hpage⟩ := Option.ne_none_iff_exists'.1
    (mt (ofWindow?_eq_none_iff data total offset limit).1 h)
  rw [hpage, eq_ofWindow_of_ofWindow? hpage]

/-- The page is numbered like its window if it is made, and only the one of which the number is no
word is not made. -/
structure Checked (page? : Option Page) (offset size : Nat) : Prop where
  none_iff : page? = none ↔ Unnumbered offset size
  numbered : ∀ page, page? = some page → page.Numbered offset size

theorem checked_ofWindow? (data : List Record) (total offset limit : UInt64) :
    Checked (ofWindow? data total offset limit) offset.toNat (max limit.toNat 1) where
  none_iff := ofWindow?_eq_none_iff data total offset limit
  numbered page hpage := by
    have hmade : ofWindow? data total offset limit ≠ none := by simp [hpage]
    rw [eq_ofWindow_of_ofWindow? hpage, numbered_ofWindow_iff]
    exact mt (ofWindow?_eq_none_iff data total offset limit).2 hmade

end Page

/-! ## Windows of requests -/

namespace Request

/-- The size of the pages of a request, which is one at least. -/
def pageSize (r : Request) (limits : Limits) : Nat :=
  max (r.limit.getD limits.defaultLimit).toNat 1

/-- The offset of a request for pages of this size. Where a page starts beyond all words, it is the
greatest one. -/
def startFor (r : Request) (size : Nat) : Nat :=
  match r.offset, r.page with
  | some offset, _ => offset.toNat
  | none, some page => min ((page.toNat - 1) * size) 18446744073709551615
  | none, none => 0

theorem toNat_offsetFor (r : Request) (limit : UInt64) :
    (r.offsetFor limit).toNat = r.startFor limit.toNat := by
  unfold offsetFor startFor
  cases r.offset with
  | some offset => rfl
  | none =>
    cases r.page with
    | some page => rw [Word.toNat_mulSat, Word.toNat_pred]
    | none => rfl

end Request

namespace Plan

variable {relations : List Relation} {limits : Limits} {r : Request} {plan : Plan relations}

theorem toNat_limit (h : make relations limits r = .ok plan) :
    plan.limit.toNat = r.pageSize limits := by
  rw [← (make_eq_ok_iff.1 h).limit_eq]
  exact Page.toNat_atLeastOne _

theorem toNat_offset (h : make relations limits r = .ok plan) :
    plan.offset.toNat = r.startFor (r.pageSize limits) := by
  rw [← toNat_limit h, ← (make_eq_ok_iff.1 h).offset_eq]
  exact r.toNat_offsetFor plan.limit

end Plan

/-! ## Answered pages -/

namespace Execution

variable {relations : List Relation}

/-- The page is built for the plan's window. -/
def InWindow (plan : Plan relations) (page : Page) : Prop :=
  ∃ data total, page = .ofWindow data total plan.offset plan.limit

variable (plan : Plan relations)

theorem returns_rootFirst : Fetch.Returns (rootFirst plan) (InWindow plan) :=
  Fetch.returns_bind fun _ => Fetch.returns_bind fun _ => Fetch.returns_pure ⟨_, _, rfl⟩

theorem returns_rootOrdered (driving : RelationId relations) (d : Discovery) :
    Fetch.Returns (rootOrdered plan driving d) (InWindow plan) := by
  unfold rootOrdered
  split
  · exact Fetch.returns_pure ⟨_, _, rfl⟩
  · refine Fetch.returns_bind fun page => ?_
    have hfinish (total : UInt64) : Fetch.Returns
        (do
          let roots ← Hydration.hydrate plan page.data
          return pageOf plan roots total) (InWindow plan) :=
      Fetch.returns_bind fun _ => Fetch.returns_pure ⟨_, _, rfl⟩
    -- what is left differs in the total only
    dsimp only
    split
    · exact hfinish page.total
    · exact Fetch.returns_bind fun bound => hfinish (max (min bound d.total) page.total)

theorem returns_relationOrdered (limits : Limits) (driving : RelationId relations)
    (narrowing : List (RelationId relations)) :
    Fetch.Returns (relationOrdered plan limits driving narrowing) (InWindow plan) := by
  unfold relationOrdered
  refine Fetch.returns_bind fun g => ?_
  split
  · exact Fetch.returns_pure ⟨_, _, rfl⟩
  · exact Fetch.returns_bind fun _ => Fetch.returns_bind fun _ => Fetch.returns_pure ⟨_, _, rfl⟩

/-- Whatever way a plan is executed, and whatever the providers answer, its page is built for its
window. -/
theorem returns_pageOfPlan (limits : Limits) :
    Fetch.Returns (pageOfPlan plan limits) (InWindow plan) := by
  unfold pageOfPlan
  cases plan.strategy with
  | rootFirst => exact returns_rootFirst plan
  | relationFirst driving narrowing =>
    show Fetch.Returns (relationFirst plan limits driving narrowing) (InWindow plan)
    unfold relationFirst
    split
    · exact Fetch.returns_bind fun d => returns_rootOrdered plan driving d
    · exact returns_relationOrdered plan limits driving narrowing

end Execution

namespace Federation

open Execution

variable {α : Type}

theorem returns_getMany (f : Federation α) (r : Request) :
    Fetch.Returns (f.getMany r) fun page => ∃ plan, f.plan r = .ok plan ∧ InWindow plan page := by
  cases hplan : f.plan r with
  | error e =>
    rw [getMany_of_error hplan]
    exact Fetch.returns_fail e
  | ok plan =>
    rw [getMany_of_plan hplan]
    have hpages := returns_pageOfPlan plan f.limits
    exact fun b t page t' hrun => ⟨plan, rfl, hpages b t page t' hrun⟩

/-- If a page is asked for by a number and starts at a word, it has that number. -/
theorem number_eq_of_page {f : Federation α} {r : Request} {plan : Plan f.schema.relations}
    (hplan : f.plan r = .ok plan) {page : Page} (hpage : InWindow plan page) {number : UInt64}
    (hoffset : r.offset = none) (hnumber : r.page = some number) (hone : 1 ≤ number.toNat)
    (hword : (number.toNat - 1) * r.pageSize f.limits < 18446744073709551616) :
    page.number = number := by
  obtain ⟨data, total, rfl⟩ := hpage
  have hstart : plan.offset.toNat = (number.toNat - 1) * r.pageSize f.limits := by
    rw [Plan.toNat_offset hplan, Request.startFor, hoffset, hnumber]
    exact Nat.min_eq_left (Nat.le_of_lt_succ hword)
  have hsize : plan.limit.toNat ≠ 0 := Plan.toNat_limit_ne_zero hplan
  apply UInt64.toNat_inj.1
  show (plan.offset / Page.atLeastOne plan.limit + 1).toNat = number.toNat
  rw [Page.atLeastOne_of_ne_zero hsize, Page.toNat_number, hstart, ← Plan.toNat_limit hplan,
    Nat.mul_div_cancel _ (Nat.pos_of_ne_zero hsize), Nat.sub_add_cancel hone]
  exact Nat.mod_eq_of_lt number.toNat_lt

/-! ## Checked sums -/

section CheckedSums

variable {f : Federation α} {b : Backend f.schema.relations} {r : Request}
  {plan : Plan f.schema.relations}

/-- The window of a plan is the one that its request asks for. -/
theorem window_of_plan (hplan : f.plan r = .ok plan) :
    plan.offset.toNat = r.startFor (r.pageSize f.limits) ∧
      max plan.limit.toNat 1 = r.pageSize f.limits := by
  refine ⟨Plan.toNat_offset hplan, ?_⟩
  rw [Plan.toNat_limit hplan]
  exact Nat.max_eq_left (Nat.le_max_right ..)

theorem numbered_of_inWindow (hplan : f.plan r = .ok plan) {page : Page}
    (hpage : InWindow plan page)
    (h : ¬ Page.Unnumbered (r.startFor (r.pageSize f.limits)) (r.pageSize f.limits)) :
    page.Numbered (r.startFor (r.pageSize f.limits)) (r.pageSize f.limits) := by
  obtain ⟨data, total, rfl⟩ := hpage
  obtain ⟨hstart, hsize⟩ := window_of_plan hplan
  rw [← hstart, ← hsize] at h ⊢
  exact (Page.numbered_ofWindow_iff data total plan.offset plan.limit).2 h

theorem checkedPage_of_numbered (hplan : f.plan r = .ok plan) {page : Page}
    (hpage : InWindow plan page)
    (h : ¬ Page.Unnumbered (r.startFor (r.pageSize f.limits)) (r.pageSize f.limits)) :
    checkedPage plan page = .ok page := by
  obtain ⟨data, total, rfl⟩ := hpage
  obtain ⟨hstart, hsize⟩ := window_of_plan hplan
  rw [← hstart, ← hsize] at h
  simp only [checkedPage, Page.data_ofWindow, Page.total_ofWindow, Page.ofWindow?_eq_some h]

theorem checkedPage_of_unnumbered (hplan : f.plan r = .ok plan) (page : Page)
    (h : Page.Unnumbered (r.startFor (r.pageSize f.limits)) (r.pageSize f.limits)) :
    checkedPage plan page = .error .overflow := by
  obtain ⟨hstart, hsize⟩ := window_of_plan hplan
  rw [← hstart, ← hsize] at h
  simp only [checkedPage, (Page.ofWindow?_eq_none_iff ..).2 h]

/-- Everywhere but at the one window a check changes nothing. -/
theorem getManyChecked_of_numbered
    (h : ¬ Page.Unnumbered (r.startFor (r.pageSize f.limits)) (r.pageSize f.limits)) :
    f.getManyChecked r = f.getMany r := by
  cases hplan : f.plan r with
  | error e => rw [getManyChecked_of_error hplan, getMany_of_error hplan]
  | ok plan =>
    rw [getManyChecked_of_plan hplan, getMany_of_plan hplan]
    have hsame : ∀ page, InWindow plan page →
        Fetch.ofExcept (checkedPage plan page) = (pure page : Fetch f.schema.relations Page) := by
      intro page hpage
      rw [checkedPage_of_numbered hplan hpage h]
      rfl
    exact (Fetch.bind_congr_of_returns (returns_pageOfPlan plan f.limits) hsame).trans
      (bind_pure _)

/-- At the one window there is no page. -/
theorem getManyChecked_of_unnumbered
    (h : Page.Unnumbered (r.startFor (r.pageSize f.limits)) (r.pageSize f.limits)) :
    Fetch.Returns (f.getManyChecked r) fun _ => False := by
  cases hplan : f.plan r with
  | error e =>
    rw [getManyChecked_of_error hplan]
    exact Fetch.returns_fail e
  | ok plan =>
    rw [getManyChecked_of_plan hplan]
    refine Fetch.returns_bind fun page => ?_
    rw [checkedPage_of_unnumbered hplan page h]
    exact Fetch.returns_fail .overflow

/-- Every page that is made is numbered like its window, and only the page of the one window of
which the number is no word is not made; checking the sum changes no other answer. A page that is
asked for by its number has that number if it starts at a word. -/
theorem numbered_unless_overflow (f : Federation α) (b : Backend f.schema.relations)
    (r : Request) :
    let start := r.startFor (r.pageSize f.limits)
    let size := r.pageSize f.limits
    (∀ data total offset limit,
      Page.Checked (Page.ofWindow? data total offset limit) offset.toNat (max limit.toNat 1)) ∧
    (∀ offset limit,
      Page.Checked (Page.empty? offset limit) offset.toNat (max limit.toNat 1)) ∧
    (¬ Page.Unnumbered start size →
      (f.getManyChecked r).run b = (f.getMany r).run b) ∧
    (Page.Unnumbered start size → ∀ page, ((f.getManyChecked r).run b).1 ≠ .ok page) ∧
    ∀ page, ((f.getManyChecked r).run b).1 = .ok page →
      page.Numbered start size ∧
      ∀ number, r.offset = none → r.page = some number → 1 ≤ number.toNat →
        (number.toNat - 1) * size < 18446744073709551616 → page.number = number := by
  intro start size
  have hlast (h : Page.Unnumbered start size) (page : Page) :
      ((f.getManyChecked r).run b).1 ≠ .ok page := fun hpage =>
    getManyChecked_of_unnumbered h b [] page _ (Prod.ext hpage rfl)
  refine ⟨Page.checked_ofWindow?, Page.checked_ofWindow? [] 0,
    fun h => by rw [getManyChecked_of_numbered h], hlast, fun page hpage => ?_⟩
  have hnumbered : ¬ Page.Unnumbered start size := fun h => hlast h page hpage
  rw [getManyChecked_of_numbered hnumbered] at hpage
  obtain ⟨plan, hplan, hwindow⟩ := returns_getMany f r b [] page _ (Prod.ext hpage rfl)
  exact ⟨numbered_of_inWindow hplan hwindow hnumbered,
    fun number => number_eq_of_page hplan hwindow⟩

end CheckedSums

end Federation

namespace Shop

open Federation

def secondByNumber : Request := { Request.empty with page := some 2, limit := some 1 }

/-- The second page of one starts after the first customer. -/
theorem numbered_secondByNumber : ∃ page,
    (((crowded 3).getManyChecked secondByNumber).run (crowded 3).checkedBackend).1 = .ok page ∧
      page.data.map (·.joinKey? "id") = [some (.int 2)] ∧ page.number = 2 ∧ page.Numbered 1 1 := by
  have hshown : (((crowded 3).getManyChecked secondByNumber).run
      (crowded 3).checkedBackend).1.map (fun page => page.data.map (·.joinKey? "id")) =
        .ok [some (.int 2)] := by cbv
  cases hpage : (((crowded 3).getManyChecked secondByNumber).run
      (crowded 3).checkedBackend).1 with
  | error e =>
    rw [hpage] at hshown
    cases hshown
  | ok page =>
    rw [hpage] at hshown
    obtain ⟨-, -, -, -, h⟩ := numbered_unless_overflow (crowded 3) (crowded 3).checkedBackend
      secondByNumber
    obtain ⟨hnumbered, hnumber⟩ := h page hpage
    exact ⟨page, rfl, Except.ok.inj hshown, hnumber 2 rfl rfl (by decide) (by decide), hnumbered⟩

def lastWindow : Request :=
  { Request.empty with offset := some 18446744073709551615, limit := some 1 }

/-- Behind all customers, at the greatest word, there is no page of one, though the request is
accepted. -/
theorem not_forall_numbered :
    (¬ ∀ data total offset limit, ∃ page, Page.ofWindow? data total offset limit = some page ∧
      page.Numbered offset.toNat (max limit.toNat 1)) ∧
    ¬ ∀ (f : Federation Collection) (r : Request) (plan : Plan f.schema.relations),
      f.FitsWords → f.plan r = .ok plan →
        ∃ page, ((f.getManyChecked r).run f.checkedBackend).1 = .ok page ∧
          page.Numbered (r.startFor (r.pageSize f.limits)) (r.pageSize f.limits) := by
  constructor
  · intro h
    obtain ⟨page, hpage, -⟩ := h [] 0 Word.greatest 1
    have hnone : Page.ofWindow? [] 0 Word.greatest 1 = none := by cbv
    rw [hnone] at hpage
    cases hpage
  · intro h
    obtain ⟨plan, hplan⟩ : ∃ plan, (crowded 3).plan lastWindow = .ok plan := ⟨_, rfl⟩
    obtain ⟨page, hpage, -⟩ := h (crowded 3) lastWindow plan (fitsWords_crowded 3) hplan
    have hoverflow : ((((crowded 3).getManyChecked lastWindow).run
        (crowded 3).checkedBackend).1.map (·.number)) = .error .overflow := by cbv
    rw [hpage] at hoverflow
    cases hoverflow

end Shop

end FederatedJoin
