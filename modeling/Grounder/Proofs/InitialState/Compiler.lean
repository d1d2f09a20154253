import Grounder.Proofs.InitialState.Facts
import Mathlib.Data.List.Induction

/-!
# `Grounder.Proofs.InitialState.Compiler`: an initial state that is compiled in place

`InitialState.add` gives a new state or an error, so an error cannot leave a state half changed. A
compiler that changes one state in place can. It also makes a set of each listing that it looks a
name up in, and keeps it for the next time (`Compiler`). So every step may change the sets, and the
steps that fail may have changed them too.

What the steps before the last one have in common is that they answer what the definitions on states
say, whatever sets there are already, and that they change nothing but the sets (`Answers`). The
last step writes one fact, or nothing at all (`write_eq`). So adding in place is `InitialState.add`,
with the old state kept after an error (`add_eq`).

The invariant of a compiler is that its sets have the names of their listings (`Faithful`), that its
state fits the table and that every entry fits its symbol (`IsSound`). One element keeps it, added
or not (`IsReady.add_cases`), and so does a session with any elements (`isReady_after`).
`in_place_adds_or_keeps` collects what this means.
-/

set_option autoImplicit false

namespace Grounder

namespace InitialState

/-! ### A compiler in use -/

/-- The state so far, and the listings that names have been looked up in, as sets. -/
structure Compiler where
  domainSets : Std.HashMap String (Std.HashSet String)
  state : InitialState

/-- Why an element is not added. -/
inductive Stop where
  | refused (e : GroundingError)
  /-- The extension of the symbol is missing, or of the wrong kind. -/
  | unreachable

namespace Compiler

/-- A step of a compiler that may fail. What it has changed by then stays changed. -/
abbrev Step := ExceptT Stop (StateM Compiler)

/-- The refusal of an element. -/
def refusal (element : InitialFact) (fault : InitFault) : Stop :=
  .refused (.invalidInit element.text fault)

section
variable (table : SymbolTable) (numbering : VariableNumbering)

/-- A compiler before the first element. -/
def start : Compiler := ⟨∅, emptyFor table⟩

/-- The listing of a type as a set, made when it is asked for the first time. -/
def domainSet (type : String) : StateM Compiler (Std.HashSet String) := do
  match (← get).domainSets[type]? with
  | some names => return names
  | none =>
    let names := Std.HashSet.ofList ((table.domain? type).getD [])
    modify fun compiler =>
      { compiler with domainSets := compiler.domainSets.insert type names }
    return names

def isInDomain (type name : String) : StateM Compiler Bool := do
  if isNumericType type then return (Text.integer? name).isSome
  let names ← domainSet table type
  return names.contains name

/-- Whether each name is in the domain of the type that it is paired with. The first that is not
ends the search. -/
def areInDomains : List (String × String) → StateM Compiler Bool
  | [] => return true
  | (type, name) :: rest => do
    if ← isInDomain table type name then areInDomains rest else return false

def parseValue (element : InitialFact) (codomain raw : String) : Step FactValue := do
  let value := Text.trim raw
  if isNumericType codomain then
    match Text.integer? value with
    | some n => return .int n
    | none => throw (refusal element (.notNumeric raw codomain))
  else if ← isInDomain table codomain value then return .object value
  else throw (refusal element (.notInCodomain raw codomain))

/-- The value that an element gives its symbol, none for an atom. -/
def valueOf (s : Symbol) (element : InitialFact) : Step (Option FactValue) :=
  match element with
  | .atom _ _ negated =>
    if !s.isPredicate then throw (refusal element .functionAsAtom)
    else if negated then throw (refusal element .negatedAtom)
    else return none
  | .assign _ _ raw =>
    match s.codomain with
    | none => throw (refusal element .predicateWithValue)
    | some codomain => do
      let value ← parseValue table element codomain raw
      return some value

/-- A symbol with handles asks the numbering, and any other one the domains. -/
def checkArguments (s : Symbol) (v : StateVariable) : Step Unit := do
  if (numbering.block? s.name).isSome then
    if (numbering.handle? v).isSome then return () else throw (.refused (.outOfDomain v))
  else if ← areInDomains table (s.params.zip v.args) then return ()
  else throw (.refused (.outOfDomain v))

/-- What an element says, as far as it stands on its own. -/
def check (element : InitialFact) : Step (StateVariable × Option FactValue) := do
  match table.require element.symbol ("initial element '" ++ element.text ++ "'") with
  | .error e => throw (.refused e)
  | .ok s =>
    if s.name = equality then throw (refusal element .equality)
    if element.args.length ≠ s.arity then
      throw (refusal element (.argumentCount s.arity element.args.length))
    let value ← valueOf table s element
    checkArguments table numbering s ⟨s.name, element.args⟩
    return (⟨s.name, element.args⟩, value)

/-- The entries with a value for a tuple, in place of the one that it has, if it has one. -/
def putValue (tuple : Tuple) (value : FactValue) :
    List (Tuple × FactValue) → List (Tuple × FactValue)
  | [] => [(tuple, value)]
  | entry :: rest =>
    if tuple = entry.1 then (tuple, value) :: rest
    else if tuple < entry.1 then (tuple, value) :: entry :: rest
    else entry :: putValue tuple value rest

/-- Writes a fact into the extension of its symbol, which has been looked up, and tells whether the
extension had one for the tuple already. -/
def writeInto (v : StateVariable) : Option Assignment → Option FactValue → Step Bool
  | some (.relation tuples), none =>
    match Assignment.insertTuple? v.args tuples with
    | none => return true
    | some tuples' => do
      modify fun compiler =>
        { compiler with state := compiler.state.set v.symbol (.relation tuples') }
      return false
  | some (.function values), some value =>
    if values.any (·.1 = v.args) then return true
    else do
      modify fun compiler => { compiler with
        state := compiler.state.set v.symbol (.function (putValue v.args value values)) }
      return false
  | _, _ => throw .unreachable

/-- Writes a fact, and tells whether there was one about the variable already. -/
def write (v : StateVariable) (value : Option FactValue) : Step Bool := do
  let compiler ← get
  writeInto v (compiler.state.get? v.symbol) value

/-- Adds an element in place. -/
def add (element : InitialFact) : Step Unit := do
  let (v, value) ← check table numbering element
  if ← write v value then throw (.refused (.duplicateInitialization v element.text))

/-- The compiler after elements, whether they were added or not. -/
def after (elements : List InitialFact) : Compiler :=
  elements.foldl (fun compiler element => ((add table numbering element).run compiler).2)
    (start table)

end

variable {table : SymbolTable} {numbering : VariableNumbering}

/-! ### Steps that change nothing but the sets -/

/-- Each set has the names of the listing of its type. -/
def Faithful (table : SymbolTable) (sets : Std.HashMap String (Std.HashSet String)) : Prop :=
  ∀ (type : String) (names : Std.HashSet String), sets[type]? = some names →
    ∀ name, names.contains name = ((table.domain? type).getD []).contains name

/-- A step that gives the same answer whatever sets there are already, and that changes nothing but
the sets. -/
def Answers {α : Type} (table : SymbolTable) (step : StateM Compiler α) (answer : α) : Prop :=
  ∀ compiler : Compiler, Faithful table compiler.domainSets →
    ∃ sets, Faithful table sets ∧ step compiler = (answer, { compiler with domainSets := sets })

section
variable {α β : Type} {a : α} {b : β}

/-- An answer that is known changes nothing. -/
theorem Answers.pure (a : α) : Answers table (Pure.pure a) a := fun compiler h =>
  ⟨compiler.domainSets, h, rfl⟩

/-- One answer after another. -/
theorem Answers.bind {step : StateM Compiler α} {next : α → StateM Compiler β}
    (h : Answers table step a) (hnext : Answers table (next a) b) :
    Answers table (step >>= next) b := by
  intro compiler hsets
  obtain ⟨sets, hsets', hstep⟩ := h compiler hsets
  obtain ⟨sets', hsets'', hrest⟩ := hnext ⟨sets, compiler.state⟩ hsets'
  refine ⟨sets', hsets'', ?_⟩
  show (next (step compiler).1) (step compiler).2 = _
  rw [hstep]
  exact hrest

/-- A question does not fail. -/
theorem Answers.lift {step : StateM Compiler α} (h : Answers table step a) :
    Answers table (liftM step : Step α).run (.ok a) := by
  intro compiler hsets
  obtain ⟨sets, hsets', hstep⟩ := h compiler hsets
  refine ⟨sets, hsets', ?_⟩
  show (Except.ok (step compiler).1, (step compiler).2) = _
  rw [hstep]

/-- After a step that succeeds comes the next one. -/
theorem Answers.bind_ok {step : Step α} {next : α → Step β} {answer : Except Stop β}
    (h : Answers table step.run (.ok a)) (hnext : Answers table (next a).run answer) :
    Answers table (step >>= next).run answer := by
  rw [ExceptT.run_bind]
  exact Answers.bind h hnext

/-- A step that fails is the last one. -/
theorem Answers.bind_error {step : Step α} {next : α → Step β} {stop : Stop}
    (h : Answers table step.run (.error stop)) :
    Answers table (step >>= next).run (.error stop) := by
  rw [ExceptT.run_bind]
  exact Answers.bind h (Answers.pure _)

end

/-- A set is taken from those that are kept, or made and kept. -/
theorem run_domainSet (type : String) (compiler : Compiler) :
    domainSet table type compiler = match compiler.domainSets[type]? with
      | some names => (names, compiler)
      | none =>
        let names := Std.HashSet.ofList ((table.domain? type).getD [])
        (names, { compiler with domainSets := compiler.domainSets.insert type names }) := by
  simp only [domainSet, bind, StateT.bind, get, getThe, MonadStateOf.get, StateT.get, pure]
  cases compiler.domainSets[type]? <;> rfl

/-- A set that is kept or made is that of the listing. -/
theorem domainSet_eq (type : String) (compiler : Compiler)
    (h : Faithful table compiler.domainSets) :
    ∃ names sets, Faithful table sets ∧
      domainSet table type compiler = (names, { compiler with domainSets := sets }) ∧
      ∀ name, names.contains name = ((table.domain? type).getD []).contains name := by
  rw [run_domainSet]
  cases hnames : compiler.domainSets[type]? with
  | some names => exact ⟨names, compiler.domainSets, h, rfl, h type names hnames⟩
  | none =>
    let names := Std.HashSet.ofList ((table.domain? type).getD [])
    have hlisting (name : String) :
        names.contains name = ((table.domain? type).getD []).contains name :=
      Std.HashSet.contains_ofList
    refine ⟨names, compiler.domainSets.insert type names, ?_, rfl, hlisting⟩
    intro type' names' hnames'
    rw [Std.HashMap.getElem?_insert] at hnames'
    split at hnames'
    · -- This is the set that was made.
      rename_i heq
      cases hnames'
      rw [← eq_of_beq heq]
      exact hlisting
    · exact h type' names' hnames'

/-- Looking a name up in a domain answers whether it is there. -/
theorem answers_isInDomain (type name : String) :
    Answers table (isInDomain table type name) (inDomain table type name) := by
  rw [isInDomain, inDomain]
  split
  · exact Answers.pure _
  · intro compiler h
    obtain ⟨names, sets, hsets, hstep, hnames⟩ := domainSet_eq type compiler h
    refine ⟨sets, hsets, ?_⟩
    show ((domainSet table type compiler).1.contains name, (domainSet table type compiler).2) = _
    rw [hstep, hnames]

/-- Looking names up one by one answers whether all are there. -/
theorem answers_areInDomains (pairs : List (String × String)) :
    Answers table (areInDomains table pairs)
      (pairs.all fun (type, name) => inDomain table type name) := by
  induction pairs with
  | nil => exact Answers.pure true
  | cons pair rest ih =>
    obtain ⟨type, name⟩ := pair
    rw [areInDomains]
    refine (answers_isInDomain type name).bind ?_
    show Answers table _ (inDomain table type name && _)
    cases inDomain table type name with
    | true => exact ih
    | false => exact Answers.pure false

/-- A value is parsed as it is on a state. -/
theorem answers_parseValue (table : SymbolTable) (element : InitialFact) (codomain raw : String) :
    Answers table (parseValue table element codomain raw).run
      ((InitialState.parseValue table codomain raw).mapError (refusal element)) := by
  rw [parseValue, InitialState.parseValue]
  by_cases hnumeric : isNumericType codomain = true
  · simp only [hnumeric, if_true]
    cases Text.integer? (Text.trim raw) <;> exact Answers.pure _
  · simp only [hnumeric]
    refine (answers_isInDomain codomain (Text.trim raw)).lift.bind_ok ?_
    cases inDomain table codomain (Text.trim raw) <;> exact Answers.pure _

/-- The value of an element is found as it is on a state. -/
theorem answers_valueOf (table : SymbolTable) (s : Symbol) (element : InitialFact) :
    Answers table (valueOf table s element).run
      ((InitialState.valueOf table s element).mapError (refusal element)) := by
  cases element with
  | atom symbol args negated =>
    rw [valueOf, InitialState.valueOf]
    split
    · exact Answers.pure _
    · split <;> exact Answers.pure _
  | assign symbol args raw =>
    rw [valueOf, InitialState.valueOf]
    cases s.codomain with
    | none => exact Answers.pure _
    | some codomain =>
      have hparse := answers_parseValue table (.assign symbol args raw) codomain raw
      show Answers table (parseValue table _ codomain raw >>= fun value => pure (some value)).run
        (((InitialState.parseValue table codomain raw).map some).mapError _)
      cases hvalue : InitialState.parseValue table codomain raw with
      | error fault =>
        rw [hvalue] at hparse
        exact hparse.bind_error
      | ok value =>
        rw [hvalue] at hparse
        exact hparse.bind_ok (Answers.pure _)

/-- Arguments are checked as they are on a state. -/
theorem answers_checkArguments (table : SymbolTable) (numbering : VariableNumbering) (s : Symbol)
    (v : StateVariable) :
    Answers table (checkArguments table numbering s v).run
      (if inDomains table numbering s v then .ok () else .error (.refused (.outOfDomain v))) := by
  rw [checkArguments, inDomains]
  by_cases hblock : (numbering.block? s.name).isSome = true
  · rw [if_pos hblock, if_pos hblock]
    split <;> exact Answers.pure _
  · rw [if_neg hblock, if_neg hblock]
    refine (answers_areInDomains _).lift.bind_ok ?_
    split <;> exact Answers.pure _

/-- An element is checked as it is on a state. -/
theorem answers_check (table : SymbolTable) (numbering : VariableNumbering)
    (element : InitialFact) :
    Answers table (check table numbering element).run
      ((checkElement table numbering element).mapError .refused) := by
  rw [check, SymbolTable.require]
  cases hget : table.get? element.symbol with
  | none =>
    rw [checkElement, SymbolTable.require, hget]
    exact Answers.pure _
  | some s =>
    -- The checks come in the same order on both sides.
    rw [checkElement_eq hget]
    show Answers table (ExceptT.run (if s.name = equality then _ else _)) _
    by_cases hequality : s.name = equality
    · rw [if_pos hequality, if_pos hequality]
      exact Answers.bind_error (Answers.pure _)
    rw [if_neg hequality, if_neg hequality]
    show Answers table (ExceptT.run (if element.args.length ≠ s.arity then _ else _)) _
    by_cases harity : element.args.length ≠ s.arity
    · rw [if_pos harity, if_pos harity]
      exact Answers.bind_error (Answers.pure _)
    rw [if_neg harity, if_neg harity]
    have hvalue := answers_valueOf table s element
    cases hok : InitialState.valueOf table s element with
    | error fault =>
      rw [hok] at hvalue
      exact hvalue.bind_error
    | ok value =>
      rw [hok] at hvalue
      refine hvalue.bind_ok ?_
      have hargs := answers_checkArguments table numbering s ⟨s.name, element.args⟩
      by_cases hdomains : inDomains table numbering s ⟨s.name, element.args⟩ = true
      · rw [if_pos hdomains] at hargs
        simp only [if_pos hdomains]
        exact hargs.bind_ok (Answers.pure _)
      · rw [if_neg hdomains] at hargs
        simp only [if_neg hdomains]
        exact hargs.bind_error

/-! ### Writing a fact -/

/-- Putting a value for a tuple that has none inserts it. -/
theorem insertValue?_eq_putValue {tuple : Tuple} {value : FactValue}
    {values : List (Tuple × FactValue)} (hasc : Assignment.AscendingEntries values)
    (h : tuple ∉ values.map Prod.fst) :
    Assignment.insertValue? tuple value values = some (putValue tuple value values) := by
  induction values with
  | nil => rfl
  | cons entry rest ih =>
    rw [List.map_cons, List.mem_cons, not_or] at h
    rw [Assignment.insertValue?, putValue, if_neg h.1, if_neg h.1]
    split
    · rfl
    · rw [ih (List.pairwise_cons.1 hasc).2 h.2]
      rfl

variable {compiler : Compiler}

/-- Writing a fact inserts it, if the extension takes it, and does nothing where it cannot be
inserted. -/
theorem write_eq (compiler : Compiler) {v : StateVariable} {value : Option FactValue}
    {a : Assignment} (hget : compiler.state.get? v.symbol = some a) (htakes : a.Takes value)
    (hasc : a.Ascending) :
    (write v value).run compiler = match compiler.state.insert? v value with
      | some state' => (.ok false, { compiler with state := state' })
      | none => (.ok true, compiler) := by
  rw [insert?_eq_map hget]
  show (writeInto v (compiler.state.get? v.symbol) value).run compiler = _
  rw [hget]
  -- A relation takes no value and a function takes one, so the last branch is out of reach.
  cases a with
  | relation tuples =>
    cases value with
    | some value => cases htakes
    | none =>
      rw [writeInto, Assignment.insert?]
      cases Assignment.insertTuple? v.args tuples <;> rfl
  | function values =>
    cases value with
    | none => cases htakes
    | some value =>
      have hasc : Assignment.AscendingEntries values := hasc
      rw [writeInto, Assignment.insert?]
      -- A value is put only where there is none, so none is replaced.
      by_cases hmem : v.args ∈ values.map Prod.fst
      · rw [(Assignment.insertValue?_eq_none hasc).2 hmem, if_pos (by simpa using hmem)]
        rfl
      · rw [insertValue?_eq_putValue hasc hmem, if_neg (by simpa using hmem)]
        rfl

/-! ### Adding in place -/

/-- A step goes on with what the one before left, unless this failed. -/
theorem run_bind {α β : Type} (step : Step α) (next : α → Step β) (compiler : Compiler) :
    (step >>= next).run compiler = match step.run compiler with
      | (.ok a, compiler') => (next a).run compiler'
      | (.error stop, compiler') => (.error stop, compiler') := by
  show StateT.run (step >>= next).run compiler = match StateT.run step.run compiler with
    | (.ok a, compiler') => StateT.run (next a).run compiler'
    | (.error stop, compiler') => (.error stop, compiler')
  rw [ExceptT.run_bind, StateT.run_bind]
  rcases StateT.run step.run compiler with ⟨_ | a, compiler'⟩ <;> rfl

/-- Adding an element in place does what adding it to the state does. After an error the state is
the old one. -/
theorem add_eq (numbering : VariableNumbering) (hnodup : table.names.Nodup)
    (hsets : Faithful table compiler.domainSets)
    (hfits : FitsTable table compiler.state) (element : InitialFact) :
    ∃ sets, Faithful table sets ∧ (add table numbering element).run compiler =
      match InitialState.add table numbering compiler.state element with
      | .ok state' => (.ok (), ⟨sets, state'⟩)
      | .error e => (.error (.refused e), ⟨sets, compiler.state⟩) := by
  obtain ⟨sets, hsets', hcheck⟩ := answers_check table numbering element compiler hsets
  refine ⟨sets, hsets', ?_⟩
  rw [add, InitialState.add, run_bind, hcheck]
  cases hchecked : checkElement table numbering element with
  | error e => rfl
  | ok answer =>
    obtain ⟨v, value⟩ := answer
    obtain ⟨s, hget, hne, -, hvalue, -, rfl⟩ := (checkElement_eq_ok hnodup).1 hchecked
    obtain ⟨hs, hname⟩ := (SymbolTable.get?_eq_some hnodup).1 hget
    obtain ⟨a, ha, hkind, hasc⟩ := hfits.extension s hs hne
    rw [hname] at ha
    -- The check has seen to it that the extension takes the value.
    have htakes : a.Takes value := (isNone_of_valueOf hvalue).trans hkind.symm
    have hwrite := write_eq ⟨sets, compiler.state⟩ (v := ⟨element.symbol, element.args⟩) ha htakes
      hasc
    simp only [Except.mapError, run_bind, hwrite]
    cases hinsert : compiler.state.insert? ⟨element.symbol, element.args⟩ value <;>
      simp only [bind, Except.bind, hinsert] <;> rfl

end Compiler

/-! ### Entries that fit -/

/-- A name that may stand where a type is asked for: any integer at a numeric type, and otherwise an
object of the listing. -/
def LiesIn (table : SymbolTable) (type name : String) : Prop :=
  if isNumericType type = true then (Text.integer? name).isSome = true
  else ∃ listing, table.domain? type = some listing ∧ name ∈ listing

/-- An entry that may stand in the extension of a symbol, as far as a numbering is asked. -/
structure StoredFits (table : SymbolTable) (numbering : VariableNumbering) (s : Symbol)
    (fact : Tuple × FactValue) : Prop where
  arity : fact.1.length = s.arity
  handle : (numbering.block? s.name).isSome = true →
    (numbering.handle? ⟨s.name, fact.1⟩).isSome = true
  domains : (numbering.block? s.name).isSome = false →
    List.Forall₂ (LiesIn table) s.params fact.1
  value : ValueBelongs table s.codomain fact.2

/-- A state that fits its table and has no entry that does not fit its symbol. -/
structure IsSound (table : SymbolTable) (numbering : VariableNumbering) (state : InitialState) :
    Prop where
  fits : FitsTable table state
  entries : ∀ s ∈ table.symbols, ∀ a, state.get? s.name = some a →
    ∀ fact ∈ a.entries, StoredFits table numbering s fact

/-- One more entry in the extension of the symbol of an element, for a tuple that had none, and no
change to the other extensions. -/
def AddsEntry (table : SymbolTable) (element : InitialFact) (state state' : InitialState) : Prop :=
  ∃ s a a', table.get? element.symbol = some s ∧ state.get? element.symbol = some a ∧
    state'.get? element.symbol = some a' ∧ element.args ∉ a.entries.map Prod.fst ∧
    a'.entries.Perm ((element.args, factValue s element) :: a.entries) ∧
    ∀ name, name ≠ element.symbol → state'.get? name = state.get? name

variable {table : SymbolTable} {numbering : VariableNumbering} {state state' : InitialState}
  {element : InitialFact}

/-- Looking a name up tells whether it may stand there. -/
theorem inDomain_eq_true_iff {type name : String} :
    inDomain table type name = true ↔ LiesIn table type name := by
  rw [LiesIn]
  by_cases hnumeric : isNumericType type = true
  · rw [inDomain, if_pos hnumeric, if_pos hnumeric]
  · rw [inDomain_iff (by simpa using hnumeric), if_neg hnumeric]

/-- A valid element that passes its own check stores an entry that fits. -/
theorem storedFits_of_check (hnodup : table.names.Nodup) {s : Symbol}
    (hget : table.get? element.symbol = some s) (harity : element.args.length = s.arity)
    (hfits : ValueFits table s element)
    (hdomains : inDomains table numbering s ⟨element.symbol, element.args⟩ = true) :
    StoredFits table numbering s (element.args, factValue s element) := by
  obtain ⟨-, hname⟩ := (SymbolTable.get?_eq_some hnodup).1 hget
  rw [← hname, inDomains] at hdomains
  refine ⟨harity, fun hblock => ?_, fun hblock => ?_, valueBelongs_factValue hfits⟩
  · rwa [if_pos hblock] at hdomains
  · rw [if_neg (by simp [hblock])] at hdomains
    refine List.forall₂_iff_zip.2 ⟨harity.symm, fun {type arg} hmem => ?_⟩
    exact inDomain_eq_true_iff.1 (List.all_eq_true.1 hdomains (type, arg) hmem)

/-- The arguments of an entry fit the parameters, if the numbering is one of the same symbols. -/
theorem StoredFits.args (hnodup : table.names.Nodup) {c : Classification} {order : SymbolOrder}
    (hnumbering : VariableNumbering.ofSymbols table c order = .ok numbering) {s : Symbol}
    (hs : s ∈ table.symbols) {fact : Tuple × FactValue}
    (h : StoredFits table numbering s fact) :
    List.Forall₂ (ArgumentFits table c s) s.params fact.1 := by
  by_cases hfluent : c.isFluent s.name = true
  · have hblock := (block?_isSome_iff hnodup hnumbering hs).2 hfluent
    exact (handle?_isSome_iff hnodup hnumbering hs hfluent fact.1).1 (h.handle hblock)
  · -- Without handles, the domains have been asked.
    have hblock := mt (block?_isSome_iff hnodup hnumbering hs).1 hfluent
    refine (h.domains (by simpa using hblock)).imp fun type arg hlies => ?_
    rw [ArgumentFits]
    rw [LiesIn] at hlies
    simpa [hfluent] using hlies

/-- What adding an element to a state does: it adds an entry that fits. -/
theorem exists_of_add (hnodup : table.names.Nodup) (hfits : FitsTable table state)
    (hadd : add table numbering state element = .ok state') :
    AddsEntry table element state state' ∧ FitsTable table state' ∧
      ∃ s, table.get? element.symbol = some s ∧
        StoredFits table numbering s (element.args, factValue s element) := by
  obtain ⟨⟨v, value⟩, hcheck, hinserts⟩ := Proofs.Support.bind_eq_ok.1 hadd
  obtain ⟨s, hget, hne, harity, hvalue, hdomains, rfl⟩ := (checkElement_eq_ok hnodup).1 hcheck
  obtain ⟨hs, hname⟩ := (SymbolTable.get?_eq_some hnodup).1 hget
  obtain ⟨a, ha, hkind, hasc⟩ := hfits.extension s hs hne
  have htakes : a.Takes value := (isNone_of_valueOf hvalue).trans hkind.symm
  -- The check has found a value that the symbol takes.
  have hvaluefits : ValueFits table s element := by
    by_contra hnot
    obtain ⟨fault, hfault, -⟩ := valueOf_of_not_fits hnot
    rw [hvalue] at hfault
    cases hfault
  obtain ⟨value', hvalue', -, hfact⟩ := valueOf_of_fits hvaluefits
  rw [hvalue] at hvalue'
  cases hvalue'
  rw [hname] at ha
  simp only [insert?_eq_map (v := ⟨element.symbol, element.args⟩) ha] at hinserts
  cases hinsert : a.insert? element.args value with
  | none =>
    rw [hinsert] at hinserts
    cases hinserts
  | some a' =>
    rw [hinsert] at hinserts
    cases hinserts
    obtain ⟨hentries, hkind'⟩ := Assignment.insert?_eq_some htakes hinsert
    rw [hfact] at hentries
    refine ⟨⟨s, a, a', hget, ha, get?_set_self a' ha, ?_, Assignment.insertValue?_perm hentries,
      fun name hne => get?_set_of_ne a' hne⟩, ?_, s, hget,
      storedFits_of_check hnodup hget harity hvaluefits hdomains⟩
    · intro hmem
      rw [(Assignment.insertValue?_eq_none hasc).2 hmem] at hentries
      cases hentries
    · have hset := hfits.set hnodup hs (hname.symm ▸ ha) (hkind'.trans hkind)
        (Assignment.insertValue?_ascending hasc hentries)
      rwa [hname] at hset

/-- The state without facts is sound. -/
theorem isSound_emptyFor (hnodup : table.names.Nodup) :
    IsSound table numbering (emptyFor table) := by
  refine ⟨fitsTable_emptyFor hnodup, fun s hs a ha fact hfact => ?_⟩
  have hmem : (⟨s.name, fact.1⟩, fact.2) ∈ (emptyFor table).facts :=
    (mem_facts ((fitsTable_emptyFor hnodup).nodup hnodup)).2 ⟨a, ha, hfact⟩
  rw [facts_emptyFor] at hmem
  cases hmem

/-- Adding an element keeps a state sound. -/
theorem IsSound.add (hnodup : table.names.Nodup) (h : IsSound table numbering state)
    (hadd : InitialState.add table numbering state element = .ok state') :
    IsSound table numbering state' := by
  obtain ⟨⟨s, a, a', hget, ha, ha', -, hperm, hothers⟩, hfits, s', hget', hstored⟩ :=
    exists_of_add hnodup h.fits hadd
  rw [hget] at hget'
  cases hget'
  obtain ⟨hs, hname⟩ := (SymbolTable.get?_eq_some hnodup).1 hget
  refine ⟨hfits, fun other hother b hb fact hfact => ?_⟩
  by_cases heq : other.name = element.symbol
  · -- The entries of this symbol are those from before and the one of the element.
    have hsame : other = s := List.inj_on_of_nodup_map hnodup hother hs (heq.trans hname.symm)
    subst hsame
    rw [heq, ha'] at hb
    cases hb
    rcases List.mem_cons.1 (hperm.mem_iff.1 hfact) with rfl | hold
    · exact hstored
    · exact h.entries other hs a (heq.symm ▸ ha) fact hold
  · rw [hothers other.name heq] at hb
    exact h.entries other hother b hb fact hfact

/-! ### Sessions -/

namespace Compiler

variable {compiler compiler' : Compiler}

/-- A compiler with a sound state and with sets that have the names of their listings. -/
structure IsReady (table : SymbolTable) (numbering : VariableNumbering) (compiler : Compiler) :
    Prop where
  sets : Faithful table compiler.domainSets
  sound : IsSound table numbering compiler.state

/-- A compiler is ready before the first element. -/
theorem isReady_start (numbering : VariableNumbering) (hnodup : table.names.Nodup) :
    IsReady table numbering (start table) := by
  refine ⟨fun type names hnames => ?_, isSound_emptyFor hnodup⟩
  rw [start, Std.HashMap.getElem?_empty] at hnames
  cases hnames

/-- An element that is added leads to the state that it is added to. One that is not is refused, and
the state stays as it was. The compiler is ready again in either case. -/
theorem IsReady.add_cases (hnodup : table.names.Nodup) (h : IsReady table numbering compiler)
    (element : InitialFact) :
    (∃ compiler', (add table numbering element).run compiler = (.ok (), compiler') ∧
      InitialState.add table numbering compiler.state element = .ok compiler'.state ∧
      IsReady table numbering compiler') ∨
    ∃ e compiler', (add table numbering element).run compiler = (.error (.refused e), compiler') ∧
      InitialState.add table numbering compiler.state element = .error e ∧
      compiler'.state = compiler.state ∧ IsReady table numbering compiler' := by
  obtain ⟨sets, hsets, hrun⟩ := add_eq numbering hnodup h.sets h.sound.fits element
  cases hadd : InitialState.add table numbering compiler.state element with
  | ok state' =>
    rw [hadd] at hrun
    exact .inl ⟨_, hrun, rfl, hsets, h.sound.add hnodup hadd⟩
  | error e =>
    rw [hadd] at hrun
    exact .inr ⟨e, _, hrun, rfl, rfl, hsets, h.sound⟩

/-- The last element finds the compiler that the elements before it left. -/
theorem after_concat (elements : List InitialFact) (element : InitialFact) :
    after table numbering (elements ++ [element])
      = ((add table numbering element).run (after table numbering elements)).2 := by
  simp [after]

/-- A compiler is ready after any elements. -/
theorem isReady_after (hnodup : table.names.Nodup) (elements : List InitialFact) :
    IsReady table numbering (after table numbering elements) := by
  induction elements using List.reverseRecOn with
  | nil => exact isReady_start numbering hnodup
  | append_singleton elements element ih =>
    rw [after_concat]
    rcases ih.add_cases hnodup element with ⟨compiler', hrun, -, hready⟩ |
      ⟨e, compiler', hrun, -, -, hready⟩
    · rw [hrun]
      exact hready
    · rw [hrun]
      exact hready

/-- Adding elements in place up to the first that is refused is the loop over them on states. -/
theorem forM_add (hnodup : table.names.Nodup) (h : IsReady table numbering compiler)
    (elements : List InitialFact) :
    (∃ compiler', (forM elements (add table numbering)).run compiler = (.ok (), compiler') ∧
      elements.foldlM (InitialState.add table numbering) compiler.state = .ok compiler'.state) ∨
    ∃ e compiler', (forM elements (add table numbering)).run compiler
        = (.error (.refused e), compiler') ∧
      elements.foldlM (InitialState.add table numbering) compiler.state = .error e := by
  induction elements generalizing compiler with
  | nil => exact .inl ⟨compiler, rfl, rfl⟩
  | cons element rest ih =>
    rw [List.forM_cons, run_bind, List.foldlM_cons]
    rcases h.add_cases hnodup element with ⟨compiler', hrun, hadd, hready⟩ |
      ⟨e, compiler', hrun, hadd, -, -⟩
    · rw [hrun, hadd]
      exact ih hready
    · rw [hrun, hadd]
      exact .inr ⟨e, compiler', rfl, rfl⟩

/-- A compiler that starts afresh and stops at the first error compiles what `ofElements` does. -/
theorem forM_add_start (hnodup : table.names.Nodup) (elements : List InitialFact) :
    (∀ state, ofElements table numbering elements = .ok state → ∃ compiler,
      (forM elements (add table numbering)).run (start table) = (.ok (), compiler) ∧
      compiler.state = state) ∧
    ∀ e, ofElements table numbering elements = .error e → ∃ compiler,
      (forM elements (add table numbering)).run (start table)
        = (.error (.refused e), compiler) := by
  have hstates : elements.foldlM (InitialState.add table numbering) (start table).state
      = ofElements table numbering elements := rfl
  rcases forM_add hnodup (isReady_start numbering hnodup) elements with
    ⟨compiler, hrun, hok⟩ | ⟨e, compiler, hrun, herror⟩
  · rw [hstates] at hok
    rw [hok]
    constructor
    · intro state hstate
      exact ⟨compiler, hrun, Except.ok.inj hstate⟩
    · intro e he
      cases he
  · rw [hstates] at herror
    rw [herror]
    constructor
    · intro state hstate
      cases hstate
    · intro e' he'
      cases he'
      exact ⟨compiler, hrun⟩

/-- After any elements, whether they were added or not, a compiler has one extension for every
declared symbol except equality, of the kind of the symbol. All entries have the right number of
arguments, these lie in their domains, and the values belong to the codomain. One more element
either adds one entry for a tuple that had none and changes nothing else, or it is refused and
leaves all extensions as they were. Which of the two it is, and the error, do not depend on the sets
that there are. -/
theorem in_place_adds_or_keeps {t : Task} (htable : SymbolTable.ofTask t = .ok table)
    (numbering : VariableNumbering) (elements : List InitialFact) :
    let compiler := after table numbering elements
    (compiler.state.assignments.map Prod.fst).Nodup ∧
    (∀ name, name ∈ compiler.state.assignments.map Prod.fst ↔
      name ∈ table.names ∧ name ≠ equality) ∧
    (∀ s ∈ table.symbols, s.name ≠ equality → ∃ a, compiler.state.get? s.name = some a ∧
      a.isRelation = s.isPredicate ∧ (a.entries.map Prod.fst).Nodup ∧
      ∀ fact ∈ a.entries, StoredFits table numbering s fact ∧
        ∀ c order, VariableNumbering.ofSymbols table c order = .ok numbering →
          List.Forall₂ (ArgumentFits table c s) s.params fact.1) ∧
    ∀ element answer compiler', (add table numbering element).run compiler = (answer, compiler') →
      (answer = .ok () → AddsEntry table element compiler.state compiler'.state ∧
        InitialState.add table numbering compiler.state element = .ok compiler'.state) ∧
      ∀ stop, answer = .error stop → compiler'.state = compiler.state ∧ ∃ e, stop = .refused e ∧
        InitialState.add table numbering compiler.state element = .error e := by
  intro compiler
  have hnodup := (SymbolTable.declares_of_ofTask htable).1.nodup
  have hready : IsReady table numbering compiler := isReady_after hnodup elements
  obtain ⟨hfits, hentries⟩ := hready.sound
  refine ⟨hfits.nodup hnodup, fun name => ?_, fun s hs hne => ?_, ?_⟩
  · rw [hfits.names]
    simp only [List.mem_map, List.mem_filter, decide_eq_true_eq, SymbolTable.names]
    constructor
    · rintro ⟨s, ⟨hs, hne⟩, rfl⟩
      exact ⟨⟨s, hs, rfl⟩, hne⟩
    · rintro ⟨⟨s, hs, rfl⟩, hne⟩
      exact ⟨s, ⟨hs, hne⟩, rfl⟩
  · obtain ⟨a, ha, hkind, hasc⟩ := hfits.extension s hs hne
    refine ⟨a, ha, hkind, Assignment.nodup_tuples hasc, fun fact hfact => ?_⟩
    have hstored := hentries s hs a ha fact hfact
    exact ⟨hstored, fun c order hnumbering => hstored.args hnodup hnumbering hs⟩
  · intro element answer compiler' hrun
    rcases hready.add_cases hnodup element with ⟨final, hfinal, hadd, -⟩ |
      ⟨e, final, hfinal, hadd, hstate, -⟩
    · rw [hrun] at hfinal
      cases hfinal
      refine ⟨fun _ => ⟨(exists_of_add hnodup hfits hadd).1, hadd⟩, fun stop hstop => ?_⟩
      cases hstop
    · rw [hrun] at hfinal
      cases hfinal
      constructor
      · intro hok
        cases hok
      · intro stop hstop
        cases hstop
        exact ⟨hstate, e, rfl, hadd⟩

/-- A task that gives cars weights. -/
def weightTask : Task :=
  ⟨"scales", "one", [⟨"car", ["a", "b"]⟩], ["a", "b"], [], [⟨"weight", ["car"], "int"⟩], [], [], [],
    none⟩

/-- After a car has been given a weight, a second weight for it is refused and the first one stays.
Another car can still be given one. -/
theorem in_place_adds_or_keeps_weight :
    ∃ table, SymbolTable.ofTask weightTask = .ok table ∧
      let compiler := after table .empty [.assign "weight" ["a"] "7"]
      compiler.state.get? "weight" = some (.function [(["a"], .int 7)]) ∧
      (∃ e compiler', (add table .empty (.assign "weight" ["a"] "8")).run compiler
        = (.error (.refused e), compiler') ∧ compiler'.state = compiler.state) ∧
      ∃ compiler', (add table .empty (.assign "weight" ["b"] "8")).run compiler
        = (.ok (), compiler') ∧
        AddsEntry table (.assign "weight" ["b"] "8") compiler.state compiler'.state := by
  obtain ⟨table, htable⟩ : ∃ table, SymbolTable.ofTask weightTask = .ok table := ⟨_, rfl⟩
  have hnodup := (SymbolTable.declares_of_ofTask htable).1.nodup
  refine ⟨table, htable, ?_⟩
  intro compiler
  obtain ⟨-, -, -, hsteps⟩ := in_place_adds_or_keeps htable .empty [.assign "weight" ["a"] "7"]
  have hready : IsReady table .empty compiler := isReady_after hnodup _
  -- The weight is all that the state holds.
  have hstate : compiler.state = ⟨[("weight", .function [(["a"], .int 7)])]⟩ := by
    rcases (isReady_start .empty hnodup).add_cases hnodup
      (.assign "weight" ["a"] "7") with ⟨compiler', hrun, hadd, -⟩ | ⟨e, compiler', -, hadd, -⟩
    · have hcompiler : compiler = compiler' := congrArg Prod.snd hrun
      rw [hcompiler]
      cases htable
      exact (Except.ok.inj hadd).symm
    · cases htable
      cases hadd
  refine ⟨by rw [hstate]; rfl, ?_, ?_⟩
  · rcases hready.add_cases hnodup (.assign "weight" ["a"] "8") with
      ⟨compiler', -, hadd, -⟩ | ⟨e, compiler', hrun, -⟩
    · rw [hstate] at hadd
      cases htable
      cases hadd
    · exact ⟨e, compiler', hrun, ((hsteps _ _ _ hrun).2 _ rfl).1⟩
  · rcases hready.add_cases hnodup (.assign "weight" ["b"] "8") with
      ⟨compiler', hrun, -⟩ | ⟨e, compiler', -, hadd, -⟩
    · exact ⟨compiler', hrun, ((hsteps _ _ _ hrun).1 rfl).1⟩
    · rw [hstate] at hadd
      cases htable
      cases hadd

end Compiler

end InitialState

end Grounder
