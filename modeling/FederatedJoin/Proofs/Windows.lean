-- SUMMARY: The state of discovery after any number of windows, as a function of the driving rows.
import FederatedJoin.Proofs.Answers
import FederatedJoin.Proofs.Paging
import FederatedJoin.Proofs.Plans
import Mathlib.Logic.Function.Iterate

/-!
# Windows

Discovery reads one window after the other. Over collections its state after
some windows is a function of the first rows of the driving relation: `after`
gives that state, and reading a window leads from one to the next. Nothing here
depends on why discovery goes on or stops.
-/

namespace FederatedJoin

namespace Execution

variable {limit : Nat}

theorem lt_windowsFor_iff (hlimit : limit ≠ 0) (n rows : Nat) :
    n < windowsFor rows limit ↔ n * limit < rows := by
  unfold windowsFor
  simp only [Nat.lt_iff_add_one_le, Nat.le_div_iff_mul_le (Nat.pos_of_ne_zero hlimit), Nat.add_mul]
  omega

theorem le_windowsFor_mul (hlimit : limit ≠ 0) (rows : Nat) :
    rows ≤ windowsFor rows limit * limit :=
  Nat.not_lt.1 fun h => Nat.lt_irrefl _ ((lt_windowsFor_iff hlimit _ rows).2 h)

theorem windowsFor_le (hlimit : limit ≠ 0) (rows : Nat) : windowsFor rows limit ≤ rows := by
  apply Nat.not_lt.1
  intro h
  have hmul := (lt_windowsFor_iff hlimit rows rows).1 h
  exact Nat.not_lt.2 (Nat.le_mul_of_pos_right rows (Nat.pos_of_ne_zero hlimit)) hmul

theorem windowsFor_eq_succ (hlimit : limit ≠ 0) {n rows : Nat} (hlow : n * limit < rows)
    (hhigh : rows ≤ (n + 1) * limit) : windowsFor rows limit = n + 1 := by
  refine Nat.le_antisymm (Nat.not_lt.1 fun h => ?_) ((lt_windowsFor_iff hlimit n rows).2 hlow)
  exact Nat.not_lt.2 hhigh ((lt_windowsFor_iff hlimit (n + 1) rows).1 h)

end Execution

/-! ## Cursors -/

namespace Cursor

@[simp] theorem size_iterate_advance (c : Cursor) (n : Nat) : (advance^[n] c).size = c.size := by
  induction n with
  | zero => rfl
  | succ n ih => rw [Function.iterate_succ_apply']; exact ih

/-- As long as words suffice, the windows lie next to each other. -/
theorem toNat_offset_iterate_advance (limit maxOffset : UInt64) {n : Nat}
    (h : n * (start limit maxOffset).size.toNat < 18446744073709551616) :
    (advance^[n] (start limit maxOffset)).offset.toNat =
      n * (start limit maxOffset).size.toNat := by
  induction n with
  | zero => simp [start]
  | succ n ih =>
    rw [Nat.add_mul] at h
    rw [Function.iterate_succ_apply']
    simp only [advance, Word.toNat_addSat, size_iterate_advance]
    simp only [ih (by omega), Nat.add_mul]
    omega

theorem windowsLeft_start (limit maxOffset : UInt64) : (start limit maxOffset).windowsLeft =
    Execution.windowsFor maxOffset.toNat (Page.atLeastOne limit).toNat := rfl

/-- The windows that start below the greatest offset are counted by `windowsLeft`. -/
theorem lt_windowsLeft_start_iff (limit maxOffset : UInt64) (n : Nat) :
    n < (start limit maxOffset).windowsLeft ↔
      n * (Page.atLeastOne limit).toNat < maxOffset.toNat :=
  Execution.lt_windowsFor_iff (Page.toNat_atLeastOne_ne_zero limit) n maxOffset.toNat

end Cursor

/-! ## The rows and keys that discovery sees -/

namespace Federation

variable (f : Federation Collection) (plan : Plan f.schema.relations)

/-- The request for driving rows, without a window. -/
def drivingRequest (driving : RelationId f.schema.relations) : Request :=
  { plan.routing.discoveryRequest driving with sorts := plan.sorts.relationKeys }

/-- What the provider of the driving relation answers without a window. -/
def drivingRows (driving : RelationId f.schema.relations) : List Record :=
  ((f.provider (.relation driving)).getMany (drivingRequest f plan driving)).data

/-- Whether the relation, asked for this key alone, has a row with it. -/
def hasRow (key : JoinKey) (id : RelationId f.schema.relations) : Bool :=
  let field := (f.schema.relations.get id).relationKeyField
  let request := (plan.routing.discoveryRequest id).constrainKeys field [key]
  key ∈ Record.joinKeys ((f.provider (.relation id)).getMany request).data field

/-- The distinct keys of the first `n` driving rows, in order of first occurrence,
for which every relation that narrows has a row. -/
def keysOfFirst (driving : RelationId f.schema.relations)
    (narrowing : List (RelationId f.schema.relations)) (n : Nat) : List JoinKey :=
  let field := (f.schema.relations.get driving).relationKeyField
  (Record.joinKeys ((drivingRows f plan driving).take n) field).filter fun key =>
    narrowing.all (hasRow f plan key)

variable {f plan}

theorem drivingRows_eq_select (hfit : f.FitsWords) (driving : RelationId f.schema.relations) :
    drivingRows f plan driving =
      (f.provider (.relation driving)).select (drivingRequest f plan driving) :=
  Collection.data_getMany_of_unlimited (hfit _) rfl rfl

theorem length_drivingRows_lt (hfit : f.FitsWords) (driving : RelationId f.schema.relations) :
    (drivingRows f plan driving).length < 18446744073709551616 := by
  rw [drivingRows_eq_select hfit]
  exact Nat.lt_of_le_of_lt (Collection.length_select_le ..) (hfit _)

theorem nodup_keysOfFirst (driving : RelationId f.schema.relations)
    (narrowing : List (RelationId f.schema.relations)) (n : Nat) :
    (keysOfFirst f plan driving narrowing n).Nodup :=
  (Record.nodup_joinKeys ..).filter _

variable (f plan) in
/-- More rows only add keys at the end. -/
theorem keysOfFirst_mono (driving : RelationId f.schema.relations)
    (narrowing : List (RelationId f.schema.relations)) {m n : Nat} (h : m ≤ n) :
    keysOfFirst f plan driving narrowing m <+: keysOfFirst f plan driving narrowing n :=
  (Record.joinKeys_mono (List.take_prefix_take_left h) _).filter _

variable (f plan) in
theorem length_keysOfFirst_le (driving : RelationId f.schema.relations)
    (narrowing : List (RelationId f.schema.relations)) (n : Nat) :
    (keysOfFirst f plan driving narrowing n).length ≤ (drivingRows f plan driving).length := by
  let rows := (drivingRows f plan driving).take n
  let field := (f.schema.relations.get driving).relationKeyField
  calc (keysOfFirst f plan driving narrowing n).length
      ≤ (Record.joinKeys rows field).length := List.length_filter_le ..
    _ ≤ rows.length := Record.length_joinKeys_le ..
    _ ≤ (drivingRows f plan driving).length := List.length_take_le' ..

theorem keysOfFirst_of_length_le (driving : RelationId f.schema.relations)
    (narrowing : List (RelationId f.schema.relations)) {m n : Nat}
    (hm : (drivingRows f plan driving).length ≤ m) (hn : (drivingRows f plan driving).length ≤ n) :
    keysOfFirst f plan driving narrowing m = keysOfFirst f plan driving narrowing n := by
  simp only [keysOfFirst, List.take_of_length_le hm, List.take_of_length_le hn]

/-- What any number of rows names begins what all rows name. -/
theorem keysOfFirst_isPrefix_all (driving : RelationId f.schema.relations)
    (narrowing : List (RelationId f.schema.relations)) (n : Nat) :
    keysOfFirst f plan driving narrowing n <+:
      keysOfFirst f plan driving narrowing (drivingRows f plan driving).length := by
  rcases Nat.le_total n (drivingRows f plan driving).length with h | h
  · exact keysOfFirst_mono f plan driving narrowing h
  · simp only [keysOfFirst_of_length_le driving narrowing h (Nat.le_refl _), List.prefix_rfl]

end Federation

/-! ## Reading windows -/

namespace Discovery

/-- The number of rows in `n` windows. -/
def rowsIn {relations : List Relation} (plan : Plan relations) (n : Nat) : Nat :=
  n * (Page.atLeastOne plan.limit).toNat

section Rows

variable {relations : List Relation} {plan : Plan relations}

theorem rowsIn_eq (h : plan.limit.toNat ≠ 0) (n : Nat) : rowsIn plan n = n * plan.limit.toNat := by
  simp only [rowsIn, Page.atLeastOne_of_ne_zero h]

theorem windowsLeft_start (h : plan.limit.toNat ≠ 0) (maxOffset : UInt64) :
    (start plan.limit maxOffset).cursor.windowsLeft =
      Execution.windowsFor maxOffset.toNat plan.limit.toNat := by
  refine (Cursor.windowsLeft_start ..).trans ?_
  rw [Page.atLeastOne_of_ne_zero h]

theorem rowsIn_succ (n : Nat) :
    rowsIn plan (n + 1) = rowsIn plan n + (Page.atLeastOne plan.limit).toNat := Nat.succ_mul ..

theorem rowsIn_le_rowsIn (plan : Plan relations) {m n : Nat} (h : m ≤ n) :
    rowsIn plan m ≤ rowsIn plan n :=
  Nat.mul_le_mul_right _ h

/-- The windows of a discovery are those that start below the greatest offset. -/
theorem lt_windowsLeft_iff (maxOffset : UInt64) (n : Nat) :
    n < (start plan.limit maxOffset).cursor.windowsLeft ↔ rowsIn plan n < maxOffset.toNat :=
  Cursor.lt_windowsLeft_start_iff plan.limit maxOffset n

theorem rowsIn_lt_of_lt_windowsLeft {maxOffset : UInt64} {n : Nat}
    (h : n < (start plan.limit maxOffset).cursor.windowsLeft) :
    rowsIn plan n < 18446744073709551616 :=
  Nat.lt_trans ((lt_windowsLeft_iff maxOffset n).1 h) maxOffset.toNat_lt

theorem take_rowsIn_succ (plan : Plan relations) (n : Nat) (rows : List Record) :
    rows.take (rowsIn plan (n + 1)) = rows.take (rowsIn plan n) ++
      (rows.drop (rowsIn plan n)).take (Page.atLeastOne plan.limit).toNat := by
  simp only [rowsIn_succ, List.take_add]

end Rows

open Federation

variable (f : Federation Collection) (plan : Plan f.schema.relations)
  (driving : RelationId f.schema.relations) (narrowing : List (RelationId f.schema.relations))
  (maxOffset : UInt64)

/-- The state of discovery after `n` windows. -/
def after (n : Nat) : Discovery where
  cursor := Cursor.advance^[n] (.start plan.limit maxOffset)
  keys := keysOfFirst f plan driving narrowing (rowsIn plan n)
  exhausted := (drivingRows f plan driving).length < rowsIn plan n
  reportedTotal := if n = 0 then none else some (UInt64.ofNat (drivingRows f plan driving).length)
  ranks := FirstRows.add [] (f.schema.relations.get driving).relationKeyField
    ((drivingRows f plan driving).take (rowsIn plan n))

variable {f plan driving narrowing maxOffset}

theorem after_zero : after f plan driving narrowing maxOffset 0 = .start plan.limit maxOffset := by
  simp [after, start, rowsIn, keysOfFirst, Record.joinKeys, FirstRows.add]

theorem exhausted_after_iff (n : Nat) :
    (after f plan driving narrowing maxOffset n).exhausted = true ↔
      (drivingRows f plan driving).length < rowsIn plan n :=
  decide_eq_true_iff

/-- Narrowing keeps the keys for which each relation alone has a row. -/
theorem answers_narrow (hfit : f.FitsWords) (ids : List (RelationId f.schema.relations))
    (keys : List JoinKey) :
    f.Answers (narrow plan.routing ids keys)
      (keys.filter fun key => ids.all (hasRow f plan key)) := by
  induction ids generalizing keys with
  | nil =>
    have hkeep : (keys.filter fun key => [].all (hasRow f plan key)) = keys :=
      List.filter_eq_self.2 fun _ _ => rfl
    rw [hkeep]
    exact answers_pure keys
  | cons id rest ih =>
    unfold narrow
    split
    · next hkeys =>
      rw [List.isEmpty_iff.1 hkeys]
      exact answers_pure []
    · apply (answers_getMany _ _).bind
      have hkeep : (keys.filter fun key => (id :: rest).all (hasRow f plan key)) =
          (keys.filter fun key => key ∈ Record.joinKeys ((f.provider (.relation id)).getMany
            ((plan.routing.discoveryRequest id).constrainKeys
              (f.schema.relations.get id).relationKeyField keys)).data
            (f.schema.relations.get id).relationKeyField).filter
              fun key => rest.all (hasRow f plan key) := by
        rw [List.filter_filter]
        apply List.filter_congr
        intro key hkey
        have hone := Collection.mem_joinKeys_constrained (hfit (.relation id))
          (q := plan.routing.discoveryRequest id) rfl rfl rfl
          (f.schema.relations.get id).relationKeyField hkey
        simp only [List.all_cons, hasRow, hone, Bool.and_comm]
      rw [hkeep]
      exact ih _

/-- A window of driving rows is what stands there in the whole answer. -/
theorem data_window (plan : Plan f.schema.relations) (driving : RelationId f.schema.relations)
    (hfit : f.FitsWords) (maxOffset : UInt64) {n : Nat}
    (h : rowsIn plan n < 18446744073709551616) :
    ((f.provider (.relation driving)).getMany (windowRequest plan driving
        (Cursor.advance^[n] (.start plan.limit maxOffset)).window)).data =
      ((drivingRows f plan driving).drop (rowsIn plan n)).take
        (Page.atLeastOne plan.limit).toNat := by
  rw [drivingRows_eq_select hfit, Collection.data_getMany_of_limit rfl]
  have hoffset : (windowRequest plan driving (Cursor.advance^[n]
      (.start plan.limit maxOffset)).window).resolvedOffset.toNat = rowsIn plan n :=
    Cursor.toNat_offset_iterate_advance plan.limit maxOffset h
  have hlimit : (Cursor.advance^[n] (.start plan.limit maxOffset)).window.limit =
      Page.atLeastOne plan.limit := Cursor.size_iterate_advance _ n
  rw [hoffset, hlimit]
  rfl

variable (plan driving narrowing) in
/-- Reading a window leads from the state after `n` windows to the next one. -/
theorem answers_readWindow (hfit : f.FitsWords) (maxOffset : UInt64) {n : Nat}
    (h : rowsIn plan n < 18446744073709551616) :
    f.Answers (readWindow plan driving narrowing (after f plan driving narrowing maxOffset n))
      (after f plan driving narrowing maxOffset (n + 1)) := by
  unfold readWindow
  apply (answers_getMany _ _).bind
  apply (answers_narrow hfit _ _).bind
  have hdata := data_window plan driving hfit maxOffset h
  have htake := take_rowsIn_succ plan n (drivingRows f plan driving)
  have hnext : ∀ d, d = after f plan driving narrowing maxOffset (n + 1) →
      f.Answers (pure d) (after f plan driving narrowing maxOffset (n + 1)) := by
    intro d hd
    rw [hd]
    exact answers_pure _
  apply hnext
  simp only [after, hdata, mk.injEq]
  refine ⟨(Function.iterate_succ_apply' ..).symm, ?_, ?_, ?_, ?_⟩
  · rw [keysOfFirst, Record.eraseDups_filter_joinKeys, ← htake, keysOfFirst]
  · have hlimit : (Cursor.advance^[n] (.start plan.limit maxOffset)).window.limit =
        Page.atLeastOne plan.limit := Cursor.size_iterate_advance _ n
    have hsize := Page.toNat_atLeastOne_ne_zero plan.limit
    simp only [decide_eq_decide, List.length_take, List.length_drop, hlimit, rowsIn_succ]
    omega
  · rw [if_neg (Nat.succ_ne_zero n), drivingRows_eq_select hfit]
    rfl
  · rw [FirstRows.add_add, ← htake]

/-! ## Reading everything -/

/-- Windows beyond the end of the driving rows find nothing. -/
theorem keys_after_eq_of_exhausted {m n : Nat} (hmn : m ≤ n)
    (h : (after f plan driving narrowing maxOffset m).exhausted = true) :
    (after f plan driving narrowing maxOffset m).keys =
      (after f plan driving narrowing maxOffset n).keys := by
  have hm := (exhausted_after_iff m).1 h
  have hle := rowsIn_le_rowsIn plan hmn
  exact keysOfFirst_of_length_le driving narrowing (by omega) (by omega)

variable (plan driving narrowing) in
/-- All windows are read, or fewer of which the last was short. -/
theorem answers_readAll (hfit : f.FitsWords) (maxOffset : UInt64) (left n : Nat)
    (h : n + left ≤ (start plan.limit maxOffset).cursor.windowsLeft) :
    ∃ m, n ≤ m ∧ m ≤ n + left ∧
      (m = n + left ∨ (after f plan driving narrowing maxOffset m).exhausted = true) ∧
      f.Answers (readAll plan driving narrowing left (after f plan driving narrowing maxOffset n))
        (after f plan driving narrowing maxOffset m) := by
  induction left generalizing n with
  | zero => exact ⟨n, Nat.le_refl n, Nat.le_refl n, .inl rfl, answers_pure _⟩
  | succ left ih =>
    unfold readAll
    split
    · next hexhausted =>
      exact ⟨n, Nat.le_refl n, Nat.le_add_right .., .inr hexhausted, answers_pure _⟩
    · have hlt : n < (start plan.limit maxOffset).cursor.windowsLeft := by omega
      have hread := answers_readWindow plan driving narrowing hfit maxOffset
        (rowsIn_lt_of_lt_windowsLeft hlt)
      obtain ⟨m, hm, hle, hend, hrest⟩ := ih (n + 1) (by omega)
      refine ⟨m, by omega, by omega, ?_, hread.bind hrest⟩
      exact hend.imp_left (by omega)

end Discovery

/-! ## The budget -/

namespace Execution

variable {relations : List Relation} {plan : Plan relations}

/-- The budget in numbers; a sum beyond the words is no longer than the greatest offset allows. -/
theorem windowBudget_start (hlimit : plan.limit.toNat ≠ 0) (limits : Limits) :
    windowBudget limits (Execution.target plan)
        (Discovery.start plan.limit limits.maxOffset).cursor =
      min (min (windowsFor (min (plan.offset.toNat + plan.limit.toNat) Word.greatest.toNat)
          plan.limit.toNat + limits.maxIterations.toNat) Word.greatest.toNat)
        (windowsFor limits.maxOffset.toNat plan.limit.toNat) := by
  have hsize : (Discovery.start plan.limit limits.maxOffset).cursor.size.toNat =
      plan.limit.toNat := congrArg _ (Page.atLeastOne_of_ne_zero hlimit)
  have hle := windowsFor_le hlimit limits.maxOffset.toNat
  have hword := limits.maxOffset.toNat_lt
  have hgreatest : Word.greatest.toNat = 18446744073709551615 := rfl
  rw [windowBudget, Discovery.windowsLeft_start hlimit, hsize, Execution.target, Word.toNat_addSat, hgreatest]
  omega

/-- The greatest offset alone keeps the budget within the words. -/
theorem windowBudget_eq (hlimit : plan.limit.toNat ≠ 0) (limits : Limits) :
    windowBudget limits (Execution.target plan)
        (Discovery.start plan.limit limits.maxOffset).cursor =
      min (windowsFor (min (plan.offset.toNat + plan.limit.toNat) Word.greatest.toNat)
          plan.limit.toNat + limits.maxIterations.toNat)
        (windowsFor limits.maxOffset.toNat plan.limit.toNat) := by
  have hfew : windowsFor limits.maxOffset.toNat plan.limit.toNat ≤ Word.greatest.toNat :=
    Nat.le_trans (windowsFor_le hlimit _) (Nat.le_of_lt_succ limits.maxOffset.toNat_lt)
  simp only [windowBudget_start hlimit, Nat.min_assoc, Nat.min_eq_right hfew]

end Execution

end FederatedJoin
