-- SUMMARY: Operands, conditions, requests, schemas and pages read back from what is written of them.
import FederatedJoin.Proofs.FieldOrder
import FederatedJoin.Wire.Request
import FederatedJoin.Wire.Schema

/-!
# Round trips

What is written of an operand, a condition, a request, a schema or a page reads back
as the same, whether the fields of its objects come as they were written or in order
of name. Both are cases of one argument: whatever the order of the fields, a
structure finds each of its parts by name, and a part that was not written gets the
value that it was left out for. Only a double that is not finite is lost, since it is
written as null.
-/

namespace FederatedJoin

open Json (Tree)

variable {order : List (String × Json) → List (String × Json)}

/-! ## Texts of a value -/

namespace Json

/-- The tree of a text that holds the value, with the fields of every object ordered. -/
def tree (order : List (String × Json) → List (String × Json)) (j : Json) : Tree :=
  .ofJson (j.arrange order)

/-- The names of an object's fields, in their order. -/
def names : Json → List String
  | .object fields => fields.map (·.1)
  | _ => []

theorem tree_array (items : List Json) :
    (array items).tree order = .array (items.map (tree order)) := by
  suffices Tree.ofItems (arrangeItems order items) = items.map (tree order) from
    congrArg Tree.array this
  induction items with
  | nil => rfl
  | cons item rest ih => rw [arrangeItems, Tree.ofItems, ih, List.map_cons, tree]

theorem tree_singleton (h : Reorders order) (name : String) (value : Json) :
    (object [(name, value)]).tree order = .object [(some name, value.tree order)] :=
  congrArg Tree.ofJson (arrange_singleton h name value)

end Json

/-! ## Parts -/

namespace Wire

variable {α : Type}

/-- The names that a field which may be left out adds to those of its object. -/
def shown (name : String) (present : Bool) : List String := if present then [name] else []

theorem shown_sublist (name : String) (present : Bool) : (shown name present).Sublist [name] := by
  cases present
  · exact List.nil_sublist _
  · exact List.Sublist.refl _

theorem map_fst_optionalField (name : String) (value : Option Json) :
    (optionalField name value).map (·.1) = shown name value.isSome := by
  cases value <;> rfl

@[simp] theorem lookup_optionalField (name other : String) (value : Option Json) :
    (optionalField name value).lookup other = if other = name then value else none := by
  cases value with
  | none => rw [ite_self]; rfl
  | some json =>
    rw [optionalField, List.lookup_cons, List.lookup_nil]
    by_cases h : other = name
    · rw [if_pos h, beq_iff_eq.2 h]
    · rw [if_neg h, beq_eq_false_iff_ne.2 h]

theorem lookup_eq_of_perm {as bs : List (String × α)} (h : as.Perm bs)
    (hnodup : (as.map (·.1)).Nodup) (name : String) : as.lookup name = bs.lookup name := by
  induction h with
  | nil => rfl
  | cons p _ ih =>
    obtain ⟨k, v⟩ := p
    rw [List.lookup_cons, List.lookup_cons, ih (List.nodup_cons.1 hnodup).2]
  | swap p q rest =>
    obtain ⟨k, v⟩ := p
    obtain ⟨k', v'⟩ := q
    -- the names differ, so at most one of the two is the name looked for
    have hne : k' ≠ k := (List.pairwise_cons.1 hnodup).1 _ List.mem_cons_self
    simp only [List.lookup_cons]
    grind
  | trans hfirst _ ihfirst ihlast =>
    rw [ihfirst hnodup, ihlast ((hfirst.map _).nodup_iff.1 hnodup)]

theorem lookup_map_snd {β : Type} (f : α → β) (fields : List (String × α)) (name : String) :
    (fields.map fun p => (p.1, f p.2)).lookup name = (fields.lookup name).map f := by
  induction fields with
  | nil => rfl
  | cons p rest ih =>
    obtain ⟨k, v⟩ := p
    rw [List.map_cons, List.lookup_cons, List.lookup_cons, ih]
    cases name == k <;> rfl

theorem named?_ofFields {names : List String} {fields : List (String × Json)}
    (hnodup : (fields.map (·.1)).Nodup) (hnames : ∀ p ∈ fields, p.1 ∈ names) :
    named? names (Tree.ofFields fields) = some (fields.map fun p => (p.1, Tree.ofJson p.2)) := by
  induction fields with
  | nil => rfl
  | cons p rest ih =>
    obtain ⟨hnew, hrest⟩ := List.nodup_cons.1 hnodup
    obtain ⟨hp, hmore⟩ := List.forall_mem_cons.1 hnames
    have hfirst : ¬ (rest.map fun p => (p.1, Tree.ofJson p.2)).any (·.1 = p.1) = true := by
      rw [List.any_map, List.any_eq_true]
      rintro ⟨q, hq, hsame⟩
      exact hnew (List.mem_map.2 ⟨q, hq, of_decide_eq_true hsame⟩)
    simp only [Tree.ofFields, named?, ih hrest hmore, Option.bind_eq_bind, Option.bind_some,
      not_not.2 hp, hfirst, if_false, List.map_cons, Bool.false_eq_true]

/-- The parts are the fields of an object, each found under its name. -/
def Parts.Hold (parts : Parts) (order : List (String × Json) → List (String × Json))
    (fields : List (String × Json)) : Prop :=
  ∀ name, parts.lookup name = (fields.lookup name).map (·.tree order)

/-- A structure finds its parts in an object whose fields it has, in whatever order
they are written. -/
theorem parts?_tree (h : Json.Reorders order) (names : List String)
    {fields : List (String × Json)} (hnodup : names.Nodup)
    (hnames : (Json.object fields).names.Sublist names) :
    ∃ parts, parts? names ((Json.object fields).tree order) = some parts ∧
      parts.Hold order fields := by
  have hdistinct : ((Json.arrangeFields order fields).map (·.1)).Nodup := by
    rw [Json.map_fst_arrangeFields]
    exact hnodup.sublist hnames
  have hperm := h _ hdistinct
  have hdistinct' := (hperm.map (·.1)).nodup_iff.2 hdistinct
  refine ⟨_, named?_ofFields hdistinct' fun p hp => ?_, fun name => ?_⟩
  · have hmem := List.mem_map_of_mem (f := (·.1)) (hperm.mem_iff.1 hp)
    rw [Json.map_fst_arrangeFields] at hmem
    exact hnames.mem hmem
  · rw [lookup_map_snd, lookup_eq_of_perm hperm hdistinct', Json.arrangeFields_eq_map,
      lookup_map_snd, Option.map_map]
    rfl

namespace Parts.Hold

variable {parts : Parts} {fields : List (String × Json)} {name : String} {read : Tree → Option α}

theorem required? (h : parts.Hold order fields) {json : Json} {x : α}
    (hfield : fields.lookup name = some json) (hread : read (json.tree order) = some x) :
    parts.required? name read = some x := by
  rw [Parts.required?, h name, hfield, Option.map_some, Option.bind_some, hread]

theorem defaulted? (h : parts.Hold order fields) {json : Json} {x : α} (default : α)
    (hfield : fields.lookup name = some json) (hread : read (json.tree order) = some x) :
    parts.defaulted? name default read = some x := by
  rw [Parts.defaulted?, h name, hfield]
  exact hread

theorem defaulted?_of_missing (h : parts.Hold order fields) (default : α)
    (hfield : fields.lookup name = none) : parts.defaulted? name default read = some default := by
  rw [Parts.defaulted?, h name, hfield, Option.map_none]

/-- A part that is left out when there is no value, and is never null, gives the value. -/
theorem optional? (h : parts.Hold order fields) {write : α → Json} {value : Option α}
    (hfield : fields.lookup name = value.map write)
    (hread : ∀ x ∈ value, Wire.optional? read ((write x).tree order) = some (some x)) :
    parts.defaulted? name none (Wire.optional? read) = some value := by
  cases value with
  | none => exact h.defaulted?_of_missing none hfield
  | some x => exact h.defaulted? none hfield (hread x rfl)

end Parts.Hold

/-! ## Items -/

theorem list?_tree {write : α → Json} {read : Tree → Option α} {xs : List α}
    (h : ∀ x ∈ xs, read ((write x).tree order) = some x) :
    list? read ((Json.array (xs.map write)).tree order) = some xs := by
  rw [Json.tree_array, list?, List.map_map]
  induction xs with
  | nil => rfl
  | cons x rest ih =>
    obtain ⟨hx, hrest⟩ := List.forall_mem_cons.1 h
    rw [List.map_cons, List.mapM_cons, ih hrest, Function.comp_apply, hx]
    rfl

theorem strings?_tree (texts : List String) :
    list? string? ((Json.array (texts.map .string)).tree order) = some texts :=
  list?_tree fun _ _ => rfl

theorem uint64?_tree (n : UInt64) : uint64? ((Json.uint64 n).tree order) = some n :=
  Json.Number.toUInt64?_ofUInt64 n

theorem optional_uint64?_tree (n : UInt64) :
    optional? uint64? ((Json.uint64 n).tree order) = some (some n) := by
  have hread : uint64? ((Json.uint64 n).tree order) = some n := uint64?_tree n
  exact congrArg (Option.map some) hread

end Wire

/-! ## Operands and records -/

namespace Operand

mutual

/-- No double inside is infinite or not a number. -/
def isFinite : Operand → Bool
  | .float x => x.isFinite
  | .list items => allFinite items
  | _ => true

def allFinite : List Operand → Bool
  | [] => true
  | item :: rest => item.isFinite && allFinite rest

end

theorem ofNumber_ofInt64 (n : Int64) : ofNumber (.ofInt64 n) = .int n := by
  rw [ofNumber, Json.Number.toInt64?_ofInt64]

mutual

theorem ofTree?_tree : ∀ x : Operand, x.isFinite = true →
    ofTree? (x.toJson.tree order) = some x
  | .null, _ | .bool _, _ | .string _, _ => rfl
  | .int n, _ => congrArg some (ofNumber_ofInt64 n)
  | .float x, h => by
    have hnumber : Json.Number.ofDouble? x = some (.double x h) := dif_pos h
    rw [toJson, hnumber]
    rfl
  | .list items, h => congrArg (Option.map Operand.list) (ofTrees?_tree items h)

theorem ofTrees?_tree : ∀ items : List Operand, allFinite items = true →
    ofTrees? (Tree.ofItems (Json.arrangeItems order (toItems items))) = some items
  | [], _ => rfl
  | item :: rest, h => by
    obtain ⟨hitem, hrest⟩ := Bool.and_eq_true_iff.1 h
    have hread := ofTree?_tree item hitem
    rw [Json.tree] at hread
    rw [toItems, Json.arrangeItems, Tree.ofItems, ofTrees?, hread, ofTrees?_tree rest hrest]
    rfl

end

end Operand

theorem Record.ofTree?_tree (h : Json.Reorders order) {r : Record} (hr : r.WellFormed) :
    ofTree? (r.toJson.tree order) = some r := by
  have hfields := Json.ofList_arrangeFields h hr.1 (Json.sortedFields_arrange h r.fields hr.2)
  have hread := Json.toFields?_ofFields (order (Json.arrangeFields order r.fields))
  exact (congrArg (Option.map fun pairs => Record.mk (Dictionary.ofList pairs)) hread).trans
    (congrArg (fun fields => some (Record.mk fields)) hfields)

/-! ## Conditions and sort keys -/

namespace Condition

def isFinite (c : Condition) : Bool := c.operand.isFinite

theorem names_toJson (c : Condition) :
    c.toJson.names = ["field", "operator", "value"] ++ Wire.shown "relation" c.relation.isSome := by
  rw [toJson, Json.names, List.map_append, Wire.map_fst_optionalField, Option.isSome_map]
  rfl

theorem ofTree?_tree (h : Json.Reorders order) {c : Condition} (hc : c.isFinite = true) :
    ofTree? (c.toJson.tree order) = some c := by
  obtain ⟨parts, hparts, hold⟩ := Wire.parts?_tree h
    ["field", "operator", "value", "relation"] (by decide)
    (c.names_toJson ▸ (List.Sublist.refl _).append (Wire.shown_sublist ..))
  -- evaluation finds what is always written, since it stands before what may be left out
  have hfield : parts.required? "field" Wire.string? = some c.field := hold.required? rfl rfl
  have hoperator : parts.required? "operator" Wire.name? = some c.operator.symbol :=
    hold.required? rfl rfl
  have hoperand : parts.defaulted? "value" .null Operand.ofTree? = some c.operand :=
    hold.defaulted? .null rfl (Operand.ofTree?_tree c.operand hc)
  have hrelation : parts.defaulted? "relation" none (Wire.optional? Wire.string?) =
      some c.relation :=
    hold.optional? (Wire.lookup_optionalField ..) fun _ _ => rfl
  simp only [ofTree?, toJson, hparts, Option.bind_eq_bind, Option.bind_some, hfield, hoperator,
    Operator.ofSymbol?_symbol, hoperand, hrelation]
  rfl

end Condition

theorem Direction.ofTree?_name (d : Direction) : ofTree? (.string d.name) = some d := by
  cases d <;> rfl

namespace SortKey

theorem names_toJson (key : SortKey) : key.toJson.names =
    ["field", "order"] ++ Wire.shown "relation" key.relation.isSome := by
  rw [toJson, Json.names, List.map_append, Wire.map_fst_optionalField, Option.isSome_map]
  rfl

theorem ofTree?_tree (h : Json.Reorders order) (key : SortKey) :
    ofTree? (key.toJson.tree order) = some key := by
  obtain ⟨parts, hparts, hold⟩ := Wire.parts?_tree h
    ["field", "order", "relation"] (by decide)
    (key.names_toJson ▸ (List.Sublist.refl _).append (Wire.shown_sublist ..))
  have hfield : parts.required? "field" Wire.string? = some key.field := hold.required? rfl rfl
  have hdirection : parts.defaulted? "order" .ascending Direction.ofTree? = some key.direction :=
    hold.defaulted? Direction.ascending rfl key.direction.ofTree?_name
  have hrelation : parts.defaulted? "relation" none (Wire.optional? Wire.string?) =
      some key.relation :=
    hold.optional? (Wire.lookup_optionalField ..) fun _ _ => rfl
  simp only [ofTree?, toJson, hparts, Option.bind_eq_bind, Option.bind_some, hfield, hdirection,
    hrelation]
  rfl

end SortKey

/-! ## Search trees -/

namespace SearchTree

mutual

/-- The operands of all conditions are finite. -/
def isFinite : SearchTree → Bool
  | .and children => allFinite children
  | .or children => allFinite children
  | .condition c => c.isFinite

def allFinite : List SearchTree → Bool
  | [] => true
  | child :: rest => child.isFinite && allFinite rest

end

mutual

theorem ofTree?_tree (h : Json.Reorders order) : ∀ t : SearchTree, t.isFinite = true →
    ofTree? (t.toJson.tree order) = some t
  | .and children, ht => by
    rw [toJson, Json.tree_singleton h]
    exact congrArg (Option.map SearchTree.and) (ofTrees?_tree h children ht)
  | .or children, ht => by
    rw [toJson, Json.tree_singleton h]
    exact congrArg (Option.map SearchTree.or) (ofTrees?_tree h children ht)
  | .condition c, ht => by
    rw [toJson, Json.tree_singleton h]
    exact congrArg (Option.map SearchTree.condition) (Condition.ofTree?_tree h ht)

theorem ofTrees?_tree (h : Json.Reorders order) : ∀ children : List SearchTree,
    allFinite children = true →
    ofTrees? (Tree.ofItems (Json.arrangeItems order (toItems children))) = some children
  | [], _ => rfl
  | child :: rest, ht => by
    obtain ⟨hchild, hrest⟩ := Bool.and_eq_true_iff.1 ht
    have hread := ofTree?_tree h child hchild
    rw [Json.tree] at hread
    rw [toItems, Json.arrangeItems, Tree.ofItems, ofTrees?, hread, ofTrees?_tree h rest hrest]
    rfl

end

theorem optional_ofTree?_tree (h : Json.Reorders order) (t : SearchTree) (ht : t.isFinite = true) :
    Wire.optional? ofTree? (t.toJson.tree order) = some (some t) := by
  have hread := congrArg (Option.map some) (ofTree?_tree h t ht)
  -- a node of any kind is an object and so not null
  cases t <;> exact hread

end SearchTree

/-! ## Requests -/

namespace Request

/-- The operands of all conditions are finite. -/
def isFinite (r : Request) : Bool :=
  r.filters.all (·.isFinite) && r.orFilters.all (·.isFinite) && r.search.all (·.isFinite)

theorem names_toJson (r : Request) : r.toJson.names =
    ["filters", "or_filters", "sorts"] ++ Wire.shown "page" r.page.isSome
      ++ Wire.shown "offset" r.offset.isSome ++ Wire.shown "limit" r.limit.isSome
      ++ ["relations"] ++ Wire.shown "search" r.search.isSome := by
  simp only [toJson, Json.names, List.map_append, Wire.map_fst_optionalField, Option.isSome_map]
  rfl

theorem ofTree?_tree (h : Json.Reorders order) {r : Request} (hr : r.isFinite = true) :
    ofTree? (r.toJson.tree order) = some r := by
  obtain ⟨hlists, hsearchFinite⟩ := Bool.and_eq_true_iff.1 hr
  obtain ⟨hfiltersFinite, horFiltersFinite⟩ := Bool.and_eq_true_iff.1 hlists
  have hnames : r.toJson.names.Sublist
      ["filters", "or_filters", "sorts", "page", "offset", "limit", "relations", "search"] := by
    rw [names_toJson]
    exact (((((List.Sublist.refl ["filters", "or_filters", "sorts"]).append
      (Wire.shown_sublist "page" _)).append (Wire.shown_sublist "offset" _)).append
      (Wire.shown_sublist "limit" _)).append (List.Sublist.refl ["relations"])).append
      (Wire.shown_sublist "search" _)
  obtain ⟨parts, hparts, hold⟩ := Wire.parts?_tree h _ (by decide) hnames
  have hfilters : parts.defaulted? "filters" [] (Wire.list? Condition.ofTree?) = some r.filters :=
    hold.defaulted? [] rfl
      (Wire.list?_tree fun c hc =>
        Condition.ofTree?_tree h (List.all_eq_true.1 hfiltersFinite c hc))
  have horFilters : parts.defaulted? "or_filters" [] (Wire.list? Condition.ofTree?) =
      some r.orFilters :=
    hold.defaulted? [] rfl
      (Wire.list?_tree fun c hc =>
        Condition.ofTree?_tree h (List.all_eq_true.1 horFiltersFinite c hc))
  have hsorts : parts.defaulted? "sorts" [] (Wire.list? SortKey.ofTree?) = some r.sorts :=
    hold.defaulted? [] rfl (Wire.list?_tree fun key _ => SortKey.ofTree?_tree h key)
  have hpage : parts.defaulted? "page" none (Wire.optional? Wire.uint64?) = some r.page :=
    hold.optional? (by simp [List.lookup_cons, List.lookup_append])
      fun n _ => Wire.optional_uint64?_tree n
  have hoffset : parts.defaulted? "offset" none (Wire.optional? Wire.uint64?) = some r.offset :=
    hold.optional? (by simp [List.lookup_cons, List.lookup_append])
      fun n _ => Wire.optional_uint64?_tree n
  have hlimit : parts.defaulted? "limit" none (Wire.optional? Wire.uint64?) = some r.limit :=
    hold.optional? (by simp [List.lookup_cons, List.lookup_append])
      fun n _ => Wire.optional_uint64?_tree n
  have hrelations : parts.defaulted? "relations" [] (Wire.list? Wire.string?) =
      some r.relations :=
    hold.defaulted? [] (by simp [List.lookup_cons, List.lookup_append])
      (Wire.strings?_tree r.relations)
  have hsearch : parts.defaulted? "search" none (Wire.optional? SearchTree.ofTree?) =
      some r.search :=
    hold.optional? (by simp [List.lookup_cons, List.lookup_append]) fun t ht =>
      t.optional_ofTree?_tree h ((Option.all_eq_true _ _).1 hsearchFinite t ht)
  simp only [ofTree?, toJson, hparts, Option.bind_eq_bind, Option.bind_some, hfilters, horFilters,
    hsorts, hpage, hoffset, hlimit, hrelations, hsearch]
  rfl

end Request

/-! ## Schemas -/

theorem Cardinality.ofTree?_name (c : Cardinality) : ofTree? (.string c.name) = some c := by
  cases c <;> rfl

theorem Join.ofTree?_name (join : Join) : ofTree? (.string join.name) = some join := by
  cases join <;> rfl

namespace Relation

/-- The operands of the distinct filter are finite. -/
def isFinite (r : Relation) : Bool := r.distinctFilter.all (·.isFinite)

theorem names_toJson (r : Relation) : r.toJson.names =
    ["property", "cardinality", "join", "owner", "primary_key", "foreign_key"]
      ++ Wire.shown "distinct_filter" r.hasDistinctFilter ++ ["provider"] := by
  rw [toJson, Json.names, List.map_append, List.map_append, Wire.map_fst_optionalField,
    hasDistinctFilter]
  cases r.distinctFilter <;> rfl

theorem ofTree?_tree (h : Json.Reorders order) {r : Relation} (hr : r.isFinite = true) :
    ofTree? (r.toJson.tree order) = some r := by
  obtain ⟨parts, hparts, hold⟩ := Wire.parts?_tree h
    ["property", "cardinality", "join", "owner", "primary_key", "foreign_key",
      "distinct_filter", "provider"]
    (by decide) (r.names_toJson ▸ ((List.Sublist.refl _).append (Wire.shown_sublist ..)).append
      (List.Sublist.refl _))
  have hproperty : parts.required? "property" Wire.string? = some r.property :=
    hold.required? rfl rfl
  have hcardinality : parts.required? "cardinality" Cardinality.ofTree? = some r.cardinality :=
    hold.required? rfl r.cardinality.ofTree?_name
  have hjoin : parts.defaulted? "join" .left Join.ofTree? = some r.join :=
    hold.defaulted? Join.left rfl r.join.ofTree?_name
  have howner : parts.defaulted? "owner" false Wire.bool? = some r.owner :=
    hold.defaulted? false rfl rfl
  have hprimaryKey : parts.required? "primary_key" Wire.string? = some r.primaryKey :=
    hold.required? rfl rfl
  have hforeignKey : parts.required? "foreign_key" Wire.string? = some r.foreignKey :=
    hold.required? rfl rfl
  have hfilter : parts.defaulted? "distinct_filter" [] (Wire.list? Condition.ofTree?) =
      some r.distinctFilter := by
    by_cases hempty : r.distinctFilter = []
    · rw [hempty]
      exact hold.defaulted?_of_missing [] (by simp [List.lookup_cons, List.lookup_append, hempty])
    · exact hold.defaulted? [] (by simp [List.lookup_cons, List.lookup_append, hempty])
        (Wire.list?_tree fun c hc => Condition.ofTree?_tree h (List.all_eq_true.1 hr c hc))
  have hprovider : parts.required? "provider" Wire.string? = some r.provider :=
    hold.required? (show _ = some (Json.string r.provider) by
      simp [List.lookup_cons, List.lookup_append]) rfl
  simp only [ofTree?, toJson, hparts, Option.bind_eq_bind, Option.bind_some, hproperty,
    hcardinality, hjoin, howner, hprimaryKey, hforeignKey, hfilter, hprovider]
  rfl

end Relation

theorem RootCollection.ofTree?_tree (h : Json.Reorders order) (root : RootCollection) :
    ofTree? (root.toJson.tree order) = some root := by
  obtain ⟨parts, hparts, hold⟩ := Wire.parts?_tree h
    ["entity", "primary_key"] (by decide) (List.Sublist.refl root.toJson.names)
  have hentity : parts.required? "entity" Wire.string? = some root.entity := hold.required? rfl rfl
  have hprimaryKey : parts.required? "primary_key" Wire.string? = some root.primaryKey :=
    hold.required? rfl rfl
  simp only [ofTree?, toJson, hparts, Option.bind_eq_bind, Option.bind_some, hentity, hprimaryKey]
  rfl

namespace Schema

/-- The operands of all distinct filters are finite. -/
def isFinite (s : Schema) : Bool := s.relations.all (·.isFinite)

theorem ofTree?_tree (h : Json.Reorders order) {s : Schema} (hs : s.isFinite = true) :
    ofTree? (s.toJson.tree order) = some s := by
  obtain ⟨parts, hparts, hold⟩ := Wire.parts?_tree h
    ["root", "relations"] (by decide) (List.Sublist.refl s.toJson.names)
  have hroot : parts.required? "root" RootCollection.ofTree? = some s.root :=
    hold.required? rfl (s.root.ofTree?_tree h)
  have hrelations : parts.defaulted? "relations" [] (Wire.list? Relation.ofTree?) =
      some s.relations :=
    hold.defaulted? [] rfl
      (Wire.list?_tree fun r hr => Relation.ofTree?_tree h (List.all_eq_true.1 hs r hr))
  simp only [ofTree?, toJson, hparts, Option.bind_eq_bind, Option.bind_some, hroot, hrelations]
  rfl

end Schema

/-! ## Pages -/

theorem Page.ofTree?_tree (h : Json.Reorders order) {p : Page}
    (hp : ∀ record ∈ p.data, record.WellFormed) : ofTree? (p.toJson.tree order) = some p := by
  obtain ⟨parts, hparts, hold⟩ := Wire.parts?_tree h
    ["data", "count", "total", "page", "limit", "pageCount"] (by decide)
    (List.Sublist.refl p.toJson.names)
  have hdata : parts.required? "data" (Wire.list? Record.ofTree?) = some p.data :=
    hold.required? rfl (Wire.list?_tree fun r hr => Record.ofTree?_tree h (hp r hr))
  have hcount : parts.required? "count" Wire.uint64? = some p.count :=
    hold.required? rfl (Wire.uint64?_tree p.count)
  have htotal : parts.required? "total" Wire.uint64? = some p.total :=
    hold.required? rfl (Wire.uint64?_tree p.total)
  have hnumber : parts.required? "page" Wire.uint64? = some p.number :=
    hold.required? rfl (Wire.uint64?_tree p.number)
  have hlimit : parts.required? "limit" Wire.uint64? = some p.limit :=
    hold.required? rfl (Wire.uint64?_tree p.limit)
  have hpageCount : parts.required? "pageCount" Wire.uint64? = some p.pageCount :=
    hold.required? rfl (Wire.uint64?_tree p.pageCount)
  simp only [ofTree?, toJson, hparts, Option.bind_eq_bind, Option.bind_some, hdata, hcount, htotal,
    hnumber, hlimit, hpageCount]
  rfl

/-! ## Round trips -/

namespace Wire

variable {α : Type} {json : Json} {read : Tree → Option α} {x : α}

/-- What is written of `x` reads back as `x`: from the fields as they are written, and
from the value that any reader makes of them, whose fields are in order of name. -/
structure RoundTrips (json : Json) (read : Tree → Option α) (x : α) : Prop where
  written : read (.ofJson json) = some x
  value : ∃ value, (Tree.ofJson json).toJson? = some value ∧ value.WellFormed ∧
    read (.ofJson value) = some x

theorem RoundTrips.of_tree (h : ∀ order, Json.Reorders order → read (json.tree order) = some x) :
    RoundTrips json read x where
  written := by
    have hread := h id Json.reorders_id
    rwa [Json.tree, Json.arrange_id] at hread
  value := ⟨json.sorted, Json.toJson?_ofJson json, Json.wellFormed_sorted json,
    h _ Json.reorders_ofList⟩

/-- Everything that goes over the wire round-trips, if its doubles are finite. A part
that may be left out is written only when there is one; the operand of a condition
always is, and inside a list integers and doubles stay what they are. -/
theorem roundTrips :
    (∀ x : Operand, x.isFinite = true → RoundTrips x.toJson Operand.ofTree? x) ∧
    (∀ c : Condition, c.isFinite = true → RoundTrips c.toJson Condition.ofTree? c ∧
      c.toJson.names = ["field", "operator", "value"] ++ shown "relation" c.relation.isSome) ∧
    (∀ key : SortKey, RoundTrips key.toJson SortKey.ofTree? key ∧
      key.toJson.names = ["field", "order"] ++ shown "relation" key.relation.isSome) ∧
    (∀ t : SearchTree, t.isFinite = true → RoundTrips t.toJson SearchTree.ofTree? t) ∧
    (∀ r : Request, r.isFinite = true → RoundTrips r.toJson Request.ofTree? r ∧
      r.toJson.names = ["filters", "or_filters", "sorts"] ++ shown "page" r.page.isSome
        ++ shown "offset" r.offset.isSome ++ shown "limit" r.limit.isSome ++ ["relations"]
        ++ shown "search" r.search.isSome) ∧
    (∀ r : Relation, r.isFinite = true → RoundTrips r.toJson Relation.ofTree? r ∧
      r.toJson.names = ["property", "cardinality", "join", "owner", "primary_key", "foreign_key"]
        ++ shown "distinct_filter" r.hasDistinctFilter ++ ["provider"]) ∧
    (∀ s : Schema, s.isFinite = true → RoundTrips s.toJson Schema.ofTree? s) ∧
    (∀ p : Page, (∀ record ∈ p.data, record.WellFormed) → RoundTrips p.toJson Page.ofTree? p) := by
  refine ⟨fun x hx => ?operand, fun c hc => ⟨?condition, c.names_toJson⟩,
    fun key => ⟨?sortKey, key.names_toJson⟩, fun t ht => ?searchTree,
    fun r hr => ⟨?request, r.names_toJson⟩, fun r hr => ⟨?relation, r.names_toJson⟩,
    fun s hs => ?schema, fun p hp => ?page⟩
  case operand => exact .of_tree fun _ _ => Operand.ofTree?_tree x hx
  case condition => exact .of_tree fun _ h => Condition.ofTree?_tree h hc
  case sortKey => exact .of_tree fun _ h => SortKey.ofTree?_tree h key
  case searchTree => exact .of_tree fun _ h => SearchTree.ofTree?_tree h t ht
  case request => exact .of_tree fun _ h => Request.ofTree?_tree h hr
  case relation => exact .of_tree fun _ h => Relation.ofTree?_tree h hr
  case schema => exact .of_tree fun _ h => Schema.ofTree?_tree h hs
  case page => exact .of_tree fun _ h => Page.ofTree?_tree h hp

/-- An infinite double is written as null, and stays null. -/
example : Operand.ofTree? (.ofJson (Operand.float ⟨9218868437227405312⟩).toJson) = some .null := rfl

end Wire

namespace Shop

/-- A list with an integer, a double that is whole, a null and a list inside. -/
def mixedOperand : Operand :=
  .list [.int 1, .float ⟨4607182418800017408⟩, .null,
    .list [.float ⟨9223372036854775808⟩, .list []]]

/-- A request with a search in three levels, whose window is an offset. -/
def nestedRequest : Request where
  filters := [⟨"price", .among, mixedOperand, some "tiers"⟩, ⟨"name", .equal, .null, none⟩]
  orFilters := []
  sorts := [⟨"price", .descending, some "tiers"⟩]
  page := none
  offset := some 0
  limit := none
  relations := []
  search := some (.or [.and [], .and [.condition ⟨"rank", .notEqual, mixedOperand, none⟩, .or []]])

/-- One relation that leaves out its distinct filter, and one that does not. -/
def distinctSchema : Schema where
  root := ⟨"customer", "id"⟩
  relations := [.hasOne "order" "orders" "id" "customer",
    (Relation.hasMany "notes" "notes" "id" "about").withDistinctFilter
      ⟨"kind", .among, mixedOperand, none⟩]

/-- A page of one record that holds another. -/
def nestedPage : Page :=
  ⟨[⟨[("id", .int64 1), ("order", .object [("customer", .int64 1), ("price", .null)])]⟩],
    1, 1, 1, 5, 1⟩

/-- Only the window's offset and the search are written of what the request may leave out. -/
theorem roundTrips_nested :
    Wire.RoundTrips mixedOperand.toJson Operand.ofTree? mixedOperand ∧
    Wire.RoundTrips nestedRequest.toJson Request.ofTree? nestedRequest ∧
    nestedRequest.toJson.names =
      ["filters", "or_filters", "sorts", "offset", "relations", "search"] ∧
    Wire.RoundTrips distinctSchema.toJson Schema.ofTree? distinctSchema ∧
    Wire.RoundTrips nestedPage.toJson Page.ofTree? nestedPage := by
  obtain ⟨hoperand, -, -, -, hrequest, -, hschema, hpage⟩ := Wire.roundTrips
  obtain ⟨hread, hnames⟩ := hrequest nestedRequest (by decide)
  refine ⟨hoperand mixedOperand (by decide), hread, hnames, hschema distinctSchema (by decide),
    hpage nestedPage ?_⟩
  rw [nestedPage, List.forall_mem_singleton]
  exact ⟨by decide, trivial, ⟨by decide, trivial, trivial, trivial⟩, trivial⟩

end Shop

end FederatedJoin
