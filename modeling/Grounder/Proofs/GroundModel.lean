import Grounder.GroundModel
import Grounder.Proofs.Classification
import Grounder.Proofs.InitialState.Facts
import Grounder.Proofs.ObjectNumbering

/-!
# `Grounder.Proofs.GroundModel`: what a grounded task guarantees

A run of grounding without a failure can be taken apart into its stages (`build_eq_ok`). Together
they guarantee what the listings rely on: every object that a type lists has an id
(`exists_id?_of_listed`), every symbol but equality has an extension, and the entries of it fit the
symbol (`exists_extension`).
-/

set_option autoImplicit false

namespace Grounder

open Proofs.Support

namespace GroundModel

/-! ### Stages -/

/-- What grounding goes through. -/
theorem build_eq_ok {t : Task} {order : SymbolOrder} {m : GroundModel} :
    build t order = .ok m ↔
      undeclaredObject? t (ObjectNumbering.ofObjects t.objects) = none ∧
      ∃ table classification numbering init, SymbolTable.ofTask t = .ok table ∧
        Classification.ofActions t.actions table = .ok classification ∧
        VariableNumbering.ofSymbols table classification order = .ok numbering ∧
        InitialState.ofElements table numbering t.init = .ok init ∧
        m = ⟨t.domain, t.instanceName, table, ObjectNumbering.ofObjects t.objects, classification,
          numbering, init⟩ := by
  constructor
  · intro h
    obtain ⟨table, htable, h⟩ := bind_eq_ok.1 h
    simp only at h
    split at h
    · cases h
    · rename_i hobjects
      obtain ⟨classification, hclassification, h⟩ := bind_eq_ok.1 h
      obtain ⟨numbering, hnumbering, h⟩ := bind_eq_ok.1 h
      obtain ⟨init, hinit, h⟩ := bind_eq_ok.1 h
      cases h
      exact ⟨hobjects, table, classification, numbering, init, htable, hclassification, hnumbering,
        hinit, rfl⟩
  · rintro ⟨hobjects, table, classification, numbering, init, htable, hclassification, hnumbering,
      hinit, rfl⟩
    refine bind_eq_ok.2 ⟨table, htable, ?_⟩
    simp only [hobjects]
    exact bind_eq_ok.2 ⟨classification, hclassification,
      bind_eq_ok.2 ⟨numbering, hnumbering, bind_eq_ok.2 ⟨init, hinit, rfl⟩⟩⟩

variable {t : Task} {order : SymbolOrder} {m : GroundModel}

/-- The symbols of a grounded task are different. -/
theorem nodup_names (h : build t order = .ok m) : m.symbols.names.Nodup := by
  obtain ⟨-, table, classification, numbering, init, htable, -, -, -, rfl⟩ := build_eq_ok.1 h
  exact (SymbolTable.declares_of_ofTask htable).1.nodup

/-- The initial state of a grounded task records its elements, which are valid and have different
variables. -/
theorem records_of_build (h : build t order = .ok m) :
    InitialState.Records m.symbols m.init t.init ∧
      InitialState.Accepts m.symbols m.classification t.init := by
  have hnodup := nodup_names h
  obtain ⟨-, table, classification, numbering, init, -, -, hnumbering, hinit, rfl⟩ :=
    build_eq_ok.1 h
  rcases InitialState.ofElements_cases hnodup hnumbering t.init with
    ⟨final, hfinal, hrecords, haccepts⟩ | ⟨_, _, _, error, -, herror, -⟩
  · rw [hinit] at hfinal
    cases hfinal
    exact ⟨hrecords, haccepts⟩
  · rw [hinit] at herror
    cases herror

/-- The classification of a grounded task comes from the effects of its actions. -/
theorem ofActions_of_build (h : build t order = .ok m) :
    Classification.ofActions t.actions m.symbols = .ok m.classification := by
  obtain ⟨-, table, classification, numbering, init, -, hclassification, -, -, rfl⟩ :=
    build_eq_ok.1 h
  exact hclassification

/-- Every object that a type lists has an id. -/
theorem exists_id?_of_listed (h : build t order = .ok m) {type name : String}
    {listing : List String} (hlisting : m.symbols.domain? type = some listing)
    (hname : name ∈ listing) : ∃ id, m.objects.id? name = some id := by
  obtain ⟨hobjects, table, classification, numbering, init, htable, -, -, -, rfl⟩ :=
    build_eq_ok.1 h
  obtain ⟨-, htypes, hall⟩ := SymbolTable.declares_of_ofTask htable
  have hlisting : table.domain? type = some listing := hlisting
  rw [SymbolTable.domain?, htypes, hall] at hlisting
  split at hlisting
  · -- The listing belongs to a type of the task, whose objects were checked.
    rename_i d hfind
    cases hlisting
    have hmem : d ∈ t.typeDomains := List.mem_reverse.1 (List.mem_of_find?_eq_some hfind)
    rw [undeclaredObject?, List.findSome?_eq_none_iff] at hobjects
    have hchecked := hobjects d hmem
    rw [Option.map_eq_none_iff, List.find?_eq_none] at hchecked
    exact Option.ne_none_iff_exists'.1 (by simpa using hchecked name hname)
  · -- The type of all objects lists those of the task.
    split at hlisting
    · cases hlisting
      exact ObjectNumbering.exists_id?_ofObjects hname
    · cases hlisting

/-- Every symbol but equality has an extension of its kind, whose entries fit the symbol. -/
theorem exists_extension (h : build t order = .ok m) {s : Symbol} (hs : s ∈ m.symbols.symbols)
    (hne : s.name ≠ equality) :
    ∃ a, m.init.get? s.name = some a ∧ a.isRelation = s.isPredicate ∧
      ∀ fact ∈ a.entries, InitialState.FactFits m.symbols m.classification s fact := by
  obtain ⟨a, ha, hkind, -⟩ := (records_of_build h).1.1.extension s hs hne
  refine ⟨a, ha, hkind, fun fact hfact => ?_⟩
  have hnodup := nodup_names h
  obtain ⟨-, table, classification, numbering, init, -, -, hnumbering, hinit, rfl⟩ :=
    build_eq_ok.1 h
  exact InitialState.factFits_of_mem_entries hnodup hnumbering hinit hs ha hfact

/-- Equality has no extension. -/
theorem ne_equality_of_get? (h : build t order = .ok m) {name : String} {a : Assignment}
    (ha : m.init.get? name = some a) : name ≠ equality := by
  obtain ⟨before, after, hassignments, -⟩ := List.lookup_eq_some_iff.1 ha
  have hmem : name ∈ m.init.assignments.map Prod.fst := by
    rw [hassignments]
    simp
  rw [(records_of_build h).1.1.names] at hmem
  obtain ⟨s, hs, rfl⟩ := List.mem_map.1 hmem
  simpa using (List.mem_filter.1 hs).2

end GroundModel

end Grounder
