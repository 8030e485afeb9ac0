-- SUMMARY: A page that shows roots lies inside its own total.
import FederatedJoin.Proofs.Totals

/-!
# Bounds of pages

The total of a page can be smaller than the number of matching roots, but never
smaller than what the page itself shows: the window of a page that is not empty
ends at its total or before. Each way of executing a plan cuts the window out of
a list of distinct stored roots, and the total is taken from numbers that count
at least these.
-/

namespace FederatedJoin

/-! ## Page arithmetic -/

namespace Page

/-- The page counts its records and holds no more than its limit. If it holds any, they end at its
total or before, and its number is that of one of its pages. -/
structure LiesWithin (page : Page) (offset limit : UInt64) : Prop where
  limit_eq : page.limit = limit
  number_eq : page.number = offset / limit + 1
  count_eq : page.count.toNat = page.data.length
  count_le : page.count ≤ limit
  end_le : page.data ≠ [] → offset.toNat + page.count.toNat ≤ page.total.toNat
  number_le : page.data ≠ [] → page.number ≤ page.pageCount

theorem toNat_pagesFor {limit : UInt64} (h : limit.toNat ≠ 0) (total : UInt64) :
    (pagesFor total limit).toNat = Execution.windowsFor total.toNat limit.toNat := by
  have hpos : 0 < limit.toNat := Nat.pos_of_ne_zero h
  have hne : limit ≠ 0 := fun h' => h (by rw [h']; rfl)
  have hmod : total % limit = 0 ↔ total.toNat % limit.toNat = 0 := by
    rw [← UInt64.toNat_inj, UInt64.toNat_mod]
    rfl
  have hsplit := Nat.div_add_mod' total.toNat limit.toNat
  have hrest := Nat.mod_lt total.toNat hpos
  have hword := total.toNat_lt
  rw [pagesFor, if_neg hne]
  split
  · next hzero =>
    rw [hmod] at hzero
    rw [hzero, Nat.add_zero] at hsplit
    have hwindows := Execution.lt_windowsFor_iff h (total.toNat / limit.toNat) total.toNat
    have hle : total.toNat / limit.toNat ≤ Execution.windowsFor total.toNat limit.toNat :=
      Nat.div_le_div_right (Nat.le_add_right ..)
    rw [UInt64.toNat_div]
    omega
  · next hpart =>
    rw [hmod] at hpart
    have hlow : total.toNat / limit.toNat * limit.toNat < total.toNat := by omega
    have hhigh : total.toNat ≤ (total.toNat / limit.toNat + 1) * limit.toNat := by
      rw [Nat.add_mul]
      omega
    have hsmall : total.toNat / limit.toNat < total.toNat := by
      apply Nat.div_lt_self (by omega)
      apply Nat.lt_of_le_of_ne hpos
      intro hone
      rw [← hone, Nat.mod_one] at hpart
      exact hpart rfl
    have hone : (1 : UInt64).toNat = 1 := rfl
    rw [Execution.windowsFor_eq_succ h hlow hhigh, UInt64.toNat_add, UInt64.toNat_div, hone]
    exact Nat.mod_eq_of_lt (Nat.lt_of_le_of_lt hsmall hword)

/-- A window that starts before the end starts on one of the pages. -/
theorem number_le_pagesFor {offset limit total : UInt64} (h : limit.toNat ≠ 0)
    (hlt : offset.toNat < total.toNat) : offset / limit + 1 ≤ pagesFor total limit := by
  have hone : (1 : UInt64).toNat = 1 := rfl
  have hle := Nat.div_le_self offset.toNat limit.toNat
  have hword := total.toNat_lt
  rw [UInt64.le_iff_toNat_le, toNat_pagesFor h, UInt64.toNat_add, UInt64.toNat_div, hone,
    Nat.mod_eq_of_lt (by omega)]
  apply (Execution.lt_windowsFor_iff h _ _).2
  exact Nat.lt_of_le_of_lt (Nat.div_mul_le_self ..) hlt

theorem liesWithin_ofWindow {data : List Record} {total offset limit : UInt64}
    (hlimit : limit.toNat ≠ 0) (hfew : data.length ≤ limit.toNat)
    (hend : data ≠ [] → offset.toNat + data.length ≤ total.toNat) :
    (ofWindow data total offset limit).LiesWithin offset limit := by
  have hcount : (UInt64.ofNat data.length).toNat = data.length := by
    rw [UInt64.toNat_ofNat']
    exact Nat.mod_eq_of_lt (Nat.lt_of_le_of_lt hfew limit.toNat_lt)
  unfold ofWindow
  rw [atLeastOne_of_ne_zero hlimit]
  refine ⟨rfl, rfl, hcount, ?_, fun hdata => ?_, fun hdata => ?_⟩
  · rw [UInt64.le_iff_toNat_le]
    exact Nat.le_trans (Nat.le_of_eq hcount) hfew
  · show offset.toNat + (UInt64.ofNat data.length).toNat ≤ total.toNat
    rw [hcount]
    exact hend hdata
  · have hsome : 0 < data.length := List.length_pos_iff.2 hdata
    have hwithin : offset.toNat + data.length ≤ total.toNat := hend hdata
    exact number_le_pagesFor hlimit (by omega)

end Page

namespace Execution

open Federation Discovery

variable {f : Federation Collection} {plan : Plan f.schema.relations}
  {driving : RelationId f.schema.relations} {narrowing : List (RelationId f.schema.relations)}

/-! ## What a window is cut out of -/

theorem perm_ordered {relations : List Relation} (plan : Plan relations) (g : Gathering) :
    (ordered plan g).Perm
      ((g.discovery.keys.filterMap fun key => (g.found.get? key).map (key, ·)).map (·.2)) := by
  unfold ordered
  split
  · exact List.Perm.refl _
  · exact (Ties.breakTies_perm _ _ _ _).map _

/-- The roots that were gathered are distinct stored ones. -/
theorem Collected.subperm_ordered {maxOffset : UInt64} {n : Nat} {g : Gathering}
    (hg : Collected f plan driving narrowing maxOffset n g) : (ordered plan g).Subperm
      (f.root.rows.filter fun row => plan.routing.rootFilters.all (·.holds row)) := by
  let pairs := g.discovery.keys.filterMap fun key => (g.found.get? key).map (key, ·)
  have hstored : ∀ p ∈ pairs, p.2 ∈ f.rootsWith plan driving p.1 := by
    intro p hp
    obtain ⟨key, -, hfound⟩ := List.mem_filterMap.1 hp
    obtain ⟨root, hroot, rfl⟩ := Option.map_eq_some_iff.1 hfound
    exact (hg.found _ (FirstRows.mem_of_get? hroot)).2
  have hkeys : (pairs.map (·.1)).Nodup := by
    rw [map_fst_found, hg.discovery]
    exact (nodup_keysOfFirst driving narrowing _).filter _
  -- roots with different keys are different
  have hroots : (pairs.map (·.2)).Nodup := by
    apply List.Nodup.of_map (·.joinKey? (rootKeyField driving))
    have hnames : (pairs.map (·.2)).map (·.joinKey? (rootKeyField driving)) =
        (pairs.map (·.1)).map some := by
      rw [List.map_map, List.map_map]
      exact List.map_congr_left fun p hp => (mem_rootsWith.1 (hstored p hp)).2.2
    rw [hnames]
    exact hkeys.map fun _ _ h => Option.some.inj h
  refine (perm_ordered plan g).subperm.trans (List.subperm_of_subset hroots fun root hroot => ?_)
  obtain ⟨p, hp, rfl⟩ := List.mem_map.1 hroot
  obtain ⟨hrow, hfilters, -⟩ := mem_rootsWith.1 (hstored p hp)
  exact List.mem_filter.2 ⟨hrow, hfilters⟩

theorem length_ordered_le {relations : List Relation} (plan : Plan relations) (g : Gathering) :
    (ordered plan g).length ≤ g.discovery.keys.length := by
  rw [(perm_ordered plan g).length_eq, List.length_map]
  exact List.length_filterMap_le ..

/-! ## Pages -/

/-- A page lies within every total that counts the list out of which its window is cut. -/
theorem liesWithin_hydratedPage (hlimit : plan.limit.toNat ≠ 0) {roots : List Record}
    {total : UInt64} (htotal : roots.length ≤ total.toNat) :
    (hydratedPage f plan ((roots.drop plan.offset.toNat).take plan.limit.toNat) total).LiesWithin
      plan.offset plan.limit := by
  let window := (roots.drop plan.offset.toNat).take plan.limit.toNat
  have hlength : (Hydration.hydrated f plan window).length = window.length :=
    Hydration.length_hydrated plan window
  have hwindow : window.length = min plan.limit.toNat (roots.length - plan.offset.toNat) := by
    rw [List.length_take, List.length_drop]
  apply Page.liesWithin_ofWindow hlimit
  · rw [hlength]
    exact List.length_take_le ..
  · intro hsome
    have hpos := List.length_pos_iff.2 hsome
    rw [hlength] at hpos ⊢
    omega

theorem liesWithin_emptyPage (hlimit : plan.limit.toNat ≠ 0) :
    (emptyPage plan).LiesWithin plan.offset plan.limit :=
  Page.liesWithin_ofWindow hlimit (Nat.zero_le _) fun h => absurd rfl h

/-- The page of the root's own order lies within each total from the root's own on. -/
theorem liesWithin_getMany (hfit : f.FitsWords) (hlimit : plan.limit.toNat ≠ 0) (q : Request)
    {total : UInt64} (htotal : (f.root.getMany (windowed plan q)).total ≤ total) :
    (hydratedPage f plan (f.root.getMany (windowed plan q)).data total).LiesWithin
      plan.offset plan.limit := by
  have hcount : (f.root.getMany (windowed plan q)).total.toNat =
      (f.root.select (windowed plan q)).length := Collection.toNat_total_getMany (hfit .root) _
  have hdata : (f.root.getMany (windowed plan q)).data =
      ((f.root.select (windowed plan q)).drop plan.offset.toNat).take plan.limit.toNat :=
    Collection.data_getMany_of_limit rfl f.root
  rw [hdata]
  apply liesWithin_hydratedPage hlimit
  rw [← hcount]
  exact UInt64.le_iff_toNat_le.1 htotal

variable (driving) in
theorem rootOrdered_liesWithin (hfit : f.FitsWords) (hlimit : plan.limit.toNat ≠ 0)
    (d : Discovery) :
    ∃ page, f.Answers (rootOrdered plan driving d) page ∧
      page.LiesWithin plan.offset plan.limit := by
  obtain ⟨bound, -, hpage⟩ := answers_rootOrdered_page driving d
  refine ⟨_, hpage, ?_⟩
  split
  · exact liesWithin_emptyPage hlimit
  · apply liesWithin_getMany hfit hlimit
    split
    · exact UInt64.le_refl _
    · rw [UInt64.le_iff_toNat_le, Word.toNat_max]
      exact Nat.le_max_right ..

variable (driving narrowing) in
theorem relationOrdered_liesWithin (hfit : f.FitsWords) (hlimit : plan.limit.toNat ≠ 0)
    (hor : plan.routing.rootOrFilters = []) :
    ∃ page, f.Answers (relationOrdered plan f.limits driving narrowing) page ∧
      page.LiesWithin plan.offset plan.limit := by
  obtain ⟨m, g, bound, -, hg, -, hbound, hpage⟩ :=
    answers_relationOrdered_page driving narrowing hfit hor f.limits
  refine ⟨_, hpage, ?_⟩
  split
  · exact liesWithin_emptyPage hlimit
  · next hsome =>
    have hkeys : g.discovery.keys ≠ [] := mt List.isEmpty_iff.2 hsome
    apply liesWithin_hydratedPage hlimit
    rw [Word.toNat_min]
    refine Nat.le_min.2 ⟨length_le_rootTotal hfit hor hbound hg.subperm_ordered, ?_⟩
    rw [hg.discovery] at hkeys ⊢
    calc (ordered plan g).length
        ≤ g.discovery.keys.length := length_ordered_le plan g
      _ ≤ (keysOfFirst f plan driving narrowing (drivingRows f plan driving).length).length := by
        rw [hg.discovery]
        exact (keysOfFirst_isPrefix_all driving narrowing _).length_le
      _ ≤ (after f plan driving narrowing f.limits.maxOffset m).total.toNat :=
        length_keys_le_total hfit hkeys

end Execution

namespace Federation

open Execution Discovery

variable {f : Federation Collection}

/-- Whatever a request is answered with lies within its own total. -/
theorem answer_liesWithin (hfit : f.FitsWords) {r : Request} {page : Page}
    (h : f.answer r = .ok page) :
    ∃ plan, f.plan r = .ok plan ∧ page.LiesWithin plan.offset plan.limit := by
  cases hplan : f.plan r with
  | error e =>
    unfold answer at h
    rw [getMany_of_error hplan] at h
    cases h
  | ok plan =>
    have hlimit := Plan.toNat_limit_ne_zero hplan
    have hor := Plan.rootOrFilters_eq_nil hplan
    suffices ∃ page, f.Answers (pageOfPlan plan f.limits) page ∧
        page.LiesWithin plan.offset plan.limit by
      obtain ⟨answered, hanswers, hwithin⟩ := this
      rw [answer_of_plan hplan hanswers] at h
      exact ⟨plan, rfl, Except.ok.inj h ▸ hwithin⟩
    cases hstrategy : plan.strategy with
    | rootFirst =>
      unfold pageOfPlan
      rw [hstrategy]
      exact ⟨_, answers_rootFirst plan, liesWithin_getMany hfit hlimit _ (UInt64.le_refl _)⟩
    | relationFirst driving narrowing =>
      rw [pageOfPlan_of_relationFirst hstrategy]
      split
      · obtain ⟨m, -, -, -, hread⟩ := answers_readAll plan driving narrowing hfit
          f.limits.maxOffset (Discovery.start plan.limit f.limits.maxOffset).cursor.windowsLeft 0
          (Nat.le_of_eq (Nat.zero_add _))
        rw [after_zero] at hread
        obtain ⟨page, hpage, hwithin⟩ := rootOrdered_liesWithin driving hfit hlimit
          (after f plan driving narrowing f.limits.maxOffset m)
        exact ⟨page, hread.bind hpage, hwithin⟩
      · exact relationOrdered_liesWithin driving narrowing hfit hlimit hor

end Federation

namespace Shop

open Federation

def secondOfCrowded : Request := { ordering with limit := some 1, offset := some 1 }

/-- The second page of the crowded shop shows the second customer and counts no fewer. -/
theorem answer_liesWithin_secondOfCrowded : ∃ page, (crowded 3).answer secondOfCrowded = .ok page ∧
    page.data.length = 1 ∧ 1 + page.count.toNat ≤ page.total.toNat ∧
      page.number ≤ page.pageCount := by
  have hone : ((crowded 3).answer secondOfCrowded).map (·.data.length) = .ok 1 := by cbv
  have hplanned : ((crowded 3).plan secondOfCrowded).map (·.offset) = .ok 1 := by cbv
  cases hanswer : (crowded 3).answer secondOfCrowded with
  | error e =>
    rw [hanswer] at hone
    cases hone
  | ok page =>
    rw [hanswer] at hone
    have hlength : page.data.length = 1 := Except.ok.inj hone
    have hsome : page.data ≠ [] := by
      rintro hnone
      rw [hnone] at hlength
      cases hlength
    obtain ⟨plan, hplan, hwithin⟩ := answer_liesWithin (fitsWords_crowded 3) hanswer
    rw [hplan] at hplanned
    have hoffset : plan.offset = 1 := Except.ok.inj hplanned
    have hend := hwithin.end_le hsome
    rw [hoffset] at hend
    exact ⟨page, rfl, hlength, hend, hwithin.number_le hsome⟩

end Shop

end FederatedJoin
