import Grounder.Proofs.SymbolTable
import Mathlib.Data.List.Induction

/-!
# `Grounder.Proofs.SymbolCatalog`: which tasks have a table of symbols, and which one

Making the table goes through the declarations twice. The first time it stops at the first name that
comes again, and the second time at the first type that is not known, so a name that comes again goes
before any type (`Rejects`). The equality of objects, which the table adds unless the task declares
it, can be at fault in neither way: its name is new and its types are known.

`ofTask_catalogs` says when there is a table, which error there is otherwise, and what is in the
table (`Catalogs`). The symbol of a name is looked up by going through all symbols. A map from names
to ids, filled as the symbols are declared, finds the same one (`get?_eq_getElem?_idsByName`).
-/

set_option autoImplicit false

namespace Grounder

namespace SymbolTable

open Proofs.Support

/-! ### What a task declares -/

/-- The names that a task declares, predicates first. -/
def declaredNames (t : Task) : List String :=
  t.predicates.map (·.name) ++ t.functions.map (·.name)

/-- The types that the declarations of a task mention, each with the name that is declared. The
types of the parameters of a symbol come before its codomain. -/
def mentionedTypes (t : Task) : List (String × String) :=
  (t.predicates.flatMap fun p => p.params.map fun type => (p.name, type)) ++
    t.functions.flatMap fun f => (f.params ++ [f.codomain]).map fun type => (f.name, type)

/-- A type that the declarations of a task may mention. -/
def IsTypeOf (t : Task) (type : String) : Prop :=
  type = "object" ∨ (∃ d ∈ t.typeDomains, d.name = type) ∨ type = "int" ∨ type = "number"

/-- The listing of objects that a task has for a type. -/
inductive Lists (t : Task) (type : String) : List String → Prop where
  /-- The last listing that is declared for a type counts. -/
  | declared {before after : List TypeDomain} {d : TypeDomain}
      (hdomains : t.typeDomains = before ++ d :: after) (hname : d.name = type)
      (hlast : ∀ later ∈ after, later.name ≠ type) : Lists t type d.objects
  /-- All objects are listed for their type, unless there is a listing for it. -/
  | objects (htype : type = "object") (hnone : ∀ d ∈ t.typeDomains, d.name ≠ type) :
      Lists t type t.objects

/-- Why a task has no table of symbols. -/
inductive Rejects (t : Task) : GroundingError → Prop where
  /-- A name comes again. It is the first one that does. -/
  | duplicateSymbol {before after : List String} {name : String}
      (hnames : declaredNames t = before ++ name :: after) (hbefore : before.Nodup)
      (hname : name ∈ before) : Rejects t (.duplicateSymbol name)
  /-- No name comes again, and a type is not known. It is the first one that is not. -/
  | unknownType {before after : List (String × String)} {name type : String}
      (hnames : (declaredNames t).Nodup)
      (hmentioned : mentionedTypes t = before ++ (name, type) :: after)
      (hbefore : ∀ m ∈ before, IsTypeOf t m.2) (htype : ¬ IsTypeOf t type) :
      Rejects t (.unknownType type name)

/-- The ids under the names, as they are declared one after another. -/
def idsByName (table : SymbolTable) : Std.HashMap String Nat :=
  table.symbols.foldl (fun ids s => ids.insert s.name s.id) ∅

/-- What is in the table of a task. -/
structure Catalogs (table : SymbolTable) (t : Task) : Prop where
  /-- The predicates, the functions, and the equality of objects unless it is one of them. -/
  signatures : table.symbols.map (·.toSignature) =
    (t.predicates.map fun p => ⟨p.name, p.params, none⟩) ++
      (t.functions.map fun f => ⟨f.name, f.params, some f.codomain⟩) ++
        if "=" ∈ declaredNames t then [] else [⟨"=", ["object", "object"], none⟩]
  /-- The id of a symbol is its position. -/
  ids : ∀ (id : Nat) (s : Symbol), table.symbols[id]? = some s → s.id = id
  /-- There is one equality. -/
  equality : table.names.count "=" = 1
  /-- The symbol of a name is the only one that bears it. -/
  get? : ∀ (name : String) (s : Symbol), table.get? name = some s ↔
    s ∈ table.symbols ∧ ∀ other ∈ table.symbols, other.name = name ↔ other = s
  /-- A map from names to ids finds the same symbol. -/
  indexed : ∀ name, table.get? name = table.idsByName[name]?.bind fun id => table.symbols[id]?
  /-- The listing of a type is the one that the task has for it. -/
  domain? : ∀ (type : String) (objects : List String),
    table.domain? type = some objects ↔ Lists t type objects

variable {t : Task} {table : SymbolTable} {declared : List Signature} {s : Signature}
  {e : GroundingError}

/-! ### Declaring -/

/-- A symbol cannot be declared if its name is taken. -/
theorem declare_eq_error {symbols : List Symbol} :
    declare symbols s = .error e ↔
      s.name ∈ symbols.map (·.name) ∧ e = .duplicateSymbol s.name := by
  rw [declare]
  by_cases hany : (symbols.any fun other => other.name = s.name) = true
  · have hmem : s.name ∈ symbols.map (·.name) := by simpa using hany
    rw [if_pos hany]
    simp [hmem, eq_comm]
  · have hmem : s.name ∉ symbols.map (·.name) := by simpa using hany
    rw [if_neg hany]
    simp [hmem]

/-- All symbols can be declared if their names are different. -/
theorem exists_foldlM_declare (hnodup : (declared.map (·.name)).Nodup) :
    ∃ symbols, declared.foldlM declare [] = .ok symbols := by
  cases h : declared.foldlM declare [] with
  | ok symbols => exact ⟨symbols, rfl⟩
  | error e =>
    obtain ⟨before, s, after, symbols, rfl, hbefore, hfails⟩ := cut_of_foldlM_eq_error h
    obtain ⟨rfl, -, -⟩ := foldlM_declare hbefore
    obtain ⟨hname, -⟩ := declare_eq_error.1 hfails
    rw [List.map_append, List.map_cons, List.map_map, List.nodup_append] at hnodup
    exact absurd rfl (hnodup.2.2 _ hname _ List.mem_cons_self)

/-- Declaring fails at the first name that comes again. -/
theorem foldlM_declare_eq_error :
    declared.foldlM declare [] = .error e ↔
      ∃ before s after, declared = before ++ s :: after ∧ (before.map (·.name)).Nodup ∧
        s.name ∈ before.map (·.name) ∧ e = .duplicateSymbol s.name := by
  constructor
  · intro h
    obtain ⟨before, s, after, symbols, hcut, hbefore, hfails⟩ := cut_of_foldlM_eq_error h
    obtain ⟨rfl, -, hnodup⟩ := foldlM_declare hbefore
    obtain ⟨hname, he⟩ := declare_eq_error.1 hfails
    refine ⟨_, s, after, hcut, ?_, ?_, he⟩
    · rwa [List.map_map]
    · rwa [List.map_map]
  · rintro ⟨before, s, after, rfl, hnodup, hname, rfl⟩
    obtain ⟨symbols, hbefore⟩ := exists_foldlM_declare hnodup
    obtain ⟨rfl, -, -⟩ := foldlM_declare hbefore
    rw [List.map_map] at hname
    rw [List.foldlM_append, hbefore, bind_eq_error]
    refine .inr ⟨symbols, rfl, ?_⟩
    rw [List.foldlM_cons, bind_eq_error]
    exact .inl (declare_eq_error.2 ⟨hname, rfl⟩)

/-! ### The declarations of a task -/

/-- The names of the declarations are the declared ones. -/
theorem map_name_declarations (t : Task) :
    (declarations t).map (·.name) = declaredNames t := by
  simp [declarations, declaredNames, Function.comp_def]

/-- Equality is implied unless it is declared. -/
theorem impliedDeclarations_eq (t : Task) :
    impliedDeclarations (declarations t) =
      if "=" ∈ declaredNames t then [] else [⟨"=", ["object", "object"], none⟩] := by
  have hany : ((declarations t).any fun s => s.name = equality) =
      decide ("=" ∈ declaredNames t) := by
    rw [← map_name_declarations, Bool.eq_iff_iff]
    simp only [List.any_eq_true, decide_eq_true_eq, List.mem_map]
    rfl
  rw [impliedDeclarations, hany]
  by_cases h : "=" ∈ declaredNames t <;> simp [h, equality, objectType]

/-- The names of all symbols are the declared ones, and that of equality. -/
theorem map_name_allDeclarations (t : Task) :
    (allDeclarations t).map (·.name) =
      declaredNames t ++ if "=" ∈ declaredNames t then [] else ["="] := by
  rw [allDeclarations, List.map_append, map_name_declarations, impliedDeclarations_eq]
  split <;> rfl

/-- The names of all symbols are different if those that are declared are. -/
theorem nodup_allDeclarations_iff (t : Task) :
    ((allDeclarations t).map (·.name)).Nodup ↔ (declaredNames t).Nodup := by
  rw [map_name_allDeclarations]
  split
  · rw [List.append_nil]
  · rename_i hnew
    simp only [List.nodup_append, List.nodup_singleton, true_and, and_iff_left_iff_imp]
    rintro - name hname _ hequality rfl
    exact hnew (List.mem_singleton.1 hequality ▸ hname)

/-- A name that comes again is one of those that are declared, since equality is only implied if
its name is new. -/
theorem cut_declaredNames {before after : List String} {name : String}
    (h : (allDeclarations t).map (·.name) = before ++ name :: after) (hname : name ∈ before) :
    ∃ rest, declaredNames t = before ++ name :: rest := by
  rw [map_name_allDeclarations, List.append_eq_append_iff] at h
  obtain ⟨between, hbefore, himplied⟩ | ⟨rest, hnames, himplied⟩ := h
  · split at himplied
    · simp at himplied
    · rename_i hnew
      obtain ⟨rfl, rfl⟩ : between = [] ∧ name = "=" := by
        cases between <;> simp_all
      rw [List.append_nil] at hbefore
      exact absurd (hbefore ▸ hname) hnew
  · cases rest with
    | nil =>
      rw [List.append_nil] at hnames
      split at himplied
      · cases himplied
      · rename_i hnew
        cases himplied
        exact absurd (hnames ▸ hname) hnew
    | cons first rest =>
      cases himplied
      exact ⟨rest, hnames⟩

/-- A cut of the names is a cut of the declarations. -/
theorem declarations_eq_of_declaredNames {before after : List String} {name : String}
    (h : declaredNames t = before ++ name :: after) :
    ∃ first s last, declarations t = first ++ s :: last ∧ first.map (·.name) = before ∧
      s.name = name := by
  rw [← map_name_declarations, List.map_eq_append_iff] at h
  obtain ⟨first, rest, hdeclarations, hfirst, hrest⟩ := h
  obtain ⟨s, last, rfl, hs, -⟩ := List.map_eq_cons_iff.1 hrest
  exact ⟨first, s, last, hdeclarations, hfirst, hs⟩

/-! ### The types -/

/-- The listing of a type in a table with the listings of a task. -/
theorem domain?_eq_some_iff (hdomains : table.typeDomains = t.typeDomains)
    (hobjects : table.objects = t.objects) {type : String} {objects : List String} :
    table.domain? type = some objects ↔ Lists t type objects := by
  rw [domain?, hdomains, hobjects]
  constructor
  · intro h
    cases hfind : t.typeDomains.reverse.find? (·.name = type) with
    | none =>
      obtain ⟨htype, rfl⟩ : type = objectType ∧ t.objects = objects := by
        simpa [hfind] using h
      exact .objects htype (by simpa using hfind)
    | some d =>
      obtain ⟨hname, after, before, hcut, hlast⟩ := List.find?_eq_some_iff_append.1 hfind
      have hdomain : t.typeDomains = before.reverse ++ d :: after.reverse := by
        rw [← List.reverse_reverse t.typeDomains, hcut]
        simp
      obtain rfl : d.objects = objects := by
        simpa [hfind] using h
      exact .declared hdomain (of_decide_eq_true hname) (by simpa using hlast)
  · rintro (⟨hcut, hname, hlast⟩ | ⟨rfl, hnone⟩)
    · rename_i before after d
      have hfind : t.typeDomains.reverse.find? (·.name = type) = some d :=
        List.find?_eq_some_iff_append.2
          ⟨decide_eq_true hname, after.reverse, before.reverse, by simp [hcut], by simpa using hlast⟩
      rw [hfind]
    · have hfind : t.typeDomains.reverse.find? (·.name = "object") = none := by
        simpa using hnone
      rw [hfind]
      rfl

/-- The table of a task knows the types that its declarations may mention. -/
theorem knowsType_iff (hdomains : table.typeDomains = t.typeDomains) {type : String} :
    table.knowsType type = true ↔ IsTypeOf t type := by
  have hlisted : (table.domain? type).isSome = true ↔
      type = "object" ∨ ∃ d ∈ t.typeDomains, d.name = type := by
    rw [domain?, hdomains]
    cases hfind : t.typeDomains.reverse.find? (·.name = type) with
    | none =>
      have hnone : ∀ d ∈ t.typeDomains, d.name ≠ type := by
        simpa using hfind
      by_cases htype : type = objectType
      · rw [if_pos htype]
        exact iff_of_true rfl (.inl htype)
      · rw [if_neg htype]
        simpa [htype] using ⟨htype, hnone⟩
    | some d =>
      have hmem : d ∈ t.typeDomains := by
        simpa using List.mem_of_find?_eq_some hfind
      have hname : d.name = type := by
        simpa using List.find?_some hfind
      exact iff_of_true rfl (.inr ⟨d, hmem, hname⟩)
  rw [knowsType, Bool.or_eq_true, hlisted, isNumericType, Bool.or_eq_true, beq_iff_eq, beq_iff_eq,
    or_assoc, IsTypeOf]

/-- The types that a signature mentions, with its name. -/
def mentions (s : Signature) : List (String × String) :=
  s.types.map fun type => (s.name, type)

/-- The declarations mention the types that the task does. -/
theorem flatMap_mentions (t : Task) : (declarations t).flatMap mentions = mentionedTypes t := by
  simp [declarations, mentionedTypes, mentions, Signature.types, List.flatMap_map]

/-- The first unknown type is looked for among the mentioned ones. -/
theorem unknownType?_eq (hsignatures : table.symbols.map (·.toSignature) = allDeclarations t)
    (hdomains : table.typeDomains = t.typeDomains) :
    table.unknownType? =
      ((mentionedTypes t).find? fun m => !table.knowsType m.2).map fun m =>
        .unknownType m.2 m.1 := by
  have hall : table.unknownType? = (((allDeclarations t).flatMap mentions).find? fun m =>
      !table.knowsType m.2).map fun m => .unknownType m.2 m.1 := by
    rw [← hsignatures, List.flatMap_map, List.find?_flatMap, List.map_findSome?, unknownType?]
    refine congrArg (table.symbols.findSome? ·) (funext fun s => ?_)
    show _ = ((mentions s.toSignature).find? _).map _
    rw [mentions, List.find?_map, Option.map_map]
    rfl
  rw [hall, allDeclarations, List.flatMap_append, flatMap_mentions, List.find?_append]
  have himplied : ((impliedDeclarations (declarations t)).flatMap mentions).find?
      (fun m => !table.knowsType m.2) = none := by
    have hobject : table.knowsType "object" = true :=
      (knowsType_iff hdomains).2 (.inl rfl)
    rw [impliedDeclarations_eq]
    split <;> simp [mentions, Signature.types, hobject]
  rw [himplied, Option.or_none]

/-! ### Making the table -/

/-- There is no table if a symbol cannot be declared, or else if a type is unknown. -/
theorem ofTask_eq_error :
    ofTask t = .error e ↔ (allDeclarations t).foldlM declare [] = .error e ∨
      ∃ symbols, (allDeclarations t).foldlM declare [] = .ok symbols ∧
        (⟨symbols, t.typeDomains, t.objects⟩ : SymbolTable).unknownType? = some e := by
  rw [ofTask]
  dsimp only
  rw [bind_eq_error]
  refine or_congr Iff.rfl (exists_congr fun symbols => and_congr Iff.rfl ?_)
  cases (⟨symbols, t.typeDomains, t.objects⟩ : SymbolTable).unknownType? with
  | none => simp [pure, Except.pure]
  | some e' => simp [throw, throwThe, MonadExceptOf.throw]

/-- The errors of a task. -/
theorem ofTask_eq_error_iff : ofTask t = .error e ↔ Rejects t e := by
  rw [ofTask_eq_error]
  constructor
  · rintro (h | ⟨symbols, hsymbols, h⟩)
    · obtain ⟨before, s, after, hcut, hnodup, hname, rfl⟩ := foldlM_declare_eq_error.1 h
      have hnames : (allDeclarations t).map (·.name) =
          before.map (·.name) ++ s.name :: after.map (·.name) := by
        rw [hcut, List.map_append, List.map_cons]
      obtain ⟨rest, hdeclared⟩ := cut_declaredNames hnames hname
      exact .duplicateSymbol hdeclared hnodup hname
    · obtain ⟨hsignatures, -, hnodup⟩ := foldlM_declare hsymbols
      rw [unknownType?_eq hsignatures rfl, Option.map_eq_some_iff] at h
      obtain ⟨⟨name, type⟩, hfind, rfl⟩ := h
      obtain ⟨htype, before, after, hcut, hbefore⟩ := List.find?_eq_some_iff_append.1 hfind
      refine .unknownType ?_ hcut ?_ ?_
      · rwa [← nodup_allDeclarations_iff, ← hsignatures, List.map_map]
      · intro m hm
        exact (knowsType_iff rfl).1 (by simpa using hbefore m hm)
      · intro hknown
        rw [(knowsType_iff rfl).2 hknown] at htype
        cases htype
  · rintro (⟨hnames, hbefore, hname⟩ | ⟨hnames, hmentioned, hbefore, htype⟩)
    · obtain ⟨first, s, last, hcut, rfl, rfl⟩ := declarations_eq_of_declaredNames hnames
      refine .inl (foldlM_declare_eq_error.2
        ⟨first, s, last ++ impliedDeclarations (declarations t), ?_, hbefore, hname, rfl⟩)
      rw [allDeclarations, hcut, List.append_assoc, List.cons_append]
    · obtain ⟨symbols, hsymbols⟩ := exists_foldlM_declare ((nodup_allDeclarations_iff t).2 hnames)
      refine .inr ⟨symbols, hsymbols, ?_⟩
      rename_i before after name type
      have hfind : (mentionedTypes t).find? (fun m =>
          !(⟨symbols, t.typeDomains, t.objects⟩ : SymbolTable).knowsType m.2) =
            some (name, type) := by
        refine List.find?_eq_some_iff_append.2 ⟨?_, before, after, hmentioned, ?_⟩
        · simpa using fun hknown => htype ((knowsType_iff rfl).1 hknown)
        · intro m hm
          simpa using (knowsType_iff rfl).2 (hbefore m hm)
      rw [unknownType?_eq (foldlM_declare hsymbols).1 rfl, hfind]
      rfl

/-- The tasks with a table. -/
theorem exists_ofTask_iff :
    (∃ table, ofTask t = .ok table) ↔
      (declaredNames t).Nodup ∧ ∀ m ∈ mentionedTypes t, IsTypeOf t m.2 := by
  constructor
  · rintro ⟨table, h⟩
    obtain ⟨hdeclares, hdomains, -⟩ := declares_of_ofTask h
    constructor
    · rw [← nodup_allDeclarations_iff, ← hdeclares.signatures, List.map_map]
      exact hdeclares.nodup
    · intro m hm
      rw [← flatMap_mentions, List.mem_flatMap] at hm
      obtain ⟨s, hs, hm⟩ := hm
      obtain ⟨type, htype, rfl⟩ := List.mem_map.1 hm
      have hmem : s ∈ table.symbols.map (·.toSignature) :=
        hdeclares.signatures ▸ List.mem_append_left _ hs
      obtain ⟨symbol, hsymbol, rfl⟩ := List.mem_map.1 hmem
      exact (knowsType_iff hdomains).1 (hdeclares.knowsType symbol hsymbol type htype)
  · rintro ⟨hnodup, hknown⟩
    cases h : ofTask t with
    | ok table => exact ⟨table, rfl⟩
    | error e =>
      obtain ⟨hnames, -, hname⟩ | ⟨-, hmentioned, -, htype⟩ := ofTask_eq_error_iff.1 h
      · rw [hnames, List.nodup_append] at hnodup
        exact absurd rfl (hnodup.2.2 _ hname _ List.mem_cons_self)
      · have hmem := hmentioned ▸ List.mem_append_right _ List.mem_cons_self
        exact absurd (hknown _ hmem) htype

/-! ### Looking up names -/

/-- A map that is filled with the ids of symbols has the id of the first symbol of a name, since no
later one bears it. -/
theorem getElem?_idsByName {symbols : List Symbol} (hnodup : (symbols.map (·.name)).Nodup)
    (name : String) :
    (symbols.foldl (fun ids s => ids.insert s.name s.id) (∅ : Std.HashMap String Nat))[name]? =
      (symbols.find? (·.name = name)).map (·.id) := by
  induction symbols using List.reverseRecOn with
  | nil => simp
  | append_singleton symbols s ih =>
    rw [List.map_append, List.nodup_append] at hnodup
    obtain ⟨hsymbols, -, hnew⟩ := hnodup
    rw [List.foldl_concat, Std.HashMap.getElem?_insert, ih hsymbols, List.find?_append]
    by_cases hname : s.name = name
    · have hnone : symbols.find? (·.name = name) = none := by
        rw [List.find?_eq_none]
        intro other hother hsame
        exact hnew _ (List.mem_map_of_mem hother) _ List.mem_cons_self
          ((of_decide_eq_true hsame).trans hname.symm)
      simp [hname, hnone]
    · simp [hname]

/-- The id of a symbol is its position. -/
theorem Declares.id_eq (h : table.Declares declared) {id : Nat} {symbol : Symbol}
    (hsymbol : table.symbols[id]? = some symbol) : symbol.id = id := by
  have hid : (List.range declared.length)[id]? = some symbol.id := by
    rw [← h.ids, List.getElem?_map, hsymbol]
    rfl
  obtain ⟨hlt, hrange⟩ := List.getElem?_eq_some_iff.1 hid
  rwa [List.getElem_range, eq_comm] at hrange

/-- A symbol stands at its id. -/
theorem Declares.getElem?_id (h : table.Declares declared) {symbol : Symbol}
    (hsymbol : symbol ∈ table.symbols) : table.symbols[symbol.id]? = some symbol := by
  obtain ⟨id, hid⟩ := List.mem_iff_getElem?.1 hsymbol
  rwa [h.id_eq hid]

/-- Going through all symbols finds the symbol that a map from names to ids does. -/
theorem get?_eq_getElem?_idsByName (h : table.Declares declared) (name : String) :
    table.get? name = table.idsByName[name]?.bind fun id => table.symbols[id]? := by
  rw [idsByName, getElem?_idsByName h.nodup]
  show table.symbols.find? _ = _
  cases hfind : table.symbols.find? (·.name = name) with
  | none => rfl
  | some symbol =>
    exact (h.getElem?_id (List.mem_of_find?_eq_some hfind)).symm

/-- A task has a table exactly if no two of its declarations have the same name and all types that
they mention are known. Otherwise the error tells of the first name that comes again or, if there is
none, of the first type that is not known. The table has the declarations in order with equality
among them, finds symbols by their names and lists the objects of types. -/
theorem ofTask_catalogs (t : Task) :
    ((∃ table, ofTask t = .ok table) ↔
      (declaredNames t).Nodup ∧ ∀ m ∈ mentionedTypes t, IsTypeOf t m.2) ∧
    (∀ e, ofTask t = .error e ↔ Rejects t e) ∧
    ∀ table, ofTask t = .ok table → table.Catalogs t := by
  refine ⟨exists_ofTask_iff, fun e => ofTask_eq_error_iff, fun table h => ?_⟩
  obtain ⟨hdeclares, hdomains, hobjects⟩ := declares_of_ofTask h
  refine ⟨?_, fun id s => hdeclares.id_eq, ?_, ?_, get?_eq_getElem?_idsByName hdeclares, ?_⟩
  · rw [hdeclares.signatures, allDeclarations, impliedDeclarations_eq, declarations,
      List.append_assoc]
  · have hnames : table.names = (allDeclarations t).map (·.name) := by
      rw [← hdeclares.signatures, List.map_map]
      rfl
    refine List.count_eq_one_of_mem hdeclares.nodup ?_
    rw [hnames, map_name_allDeclarations]
    split <;> simp [*]
  · intro name s
    rw [get?_eq_some hdeclares.nodup]
    refine and_congr_right fun hs => ?_
    constructor
    · rintro rfl other hother
      constructor
      · exact List.inj_on_of_nodup_map hdeclares.nodup hother hs
      · rintro rfl
        rfl
    · intro hunique
      exact (hunique s hs).2 rfl
  · intro type objects
    exact domain?_eq_some_iff hdomains hobjects

/-- A task may declare equality itself, even as a function. The last listing of a type counts. -/
example : (ofTask ⟨"shelves", "two", [⟨"block", ["a"]⟩, ⟨"block", ["b"]⟩], ["a", "b"], [],
      [⟨"=", ["block"], "object"⟩], [], [], [], none⟩).toOption.map
        (fun table => (table.names, table.domain? "block", table.domain? "object")) =
    some (["="], some ["b"], some ["a", "b"]) := by
  decide

end SymbolTable

end Grounder
