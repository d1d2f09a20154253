import Grounder.Proofs.Template.Parsing
import Grounder.Proofs.Template.Rendering

/-!
# `Grounder.Proofs.Template.Fill`: what the built-in templates become

A template whose text is known can be read once and for all. Its text is cut into stretches, each
of them a text without a dollar sign or a slot. The tokens of the text are those of the stretches
one after another (`tokens_source`), and filling them in joins the texts of the stretches
(`exists_mapM_text`). The theorems `result_fill_*` say so of every built-in template that occurs in
the unit of an action.
-/

set_option autoImplicit false

namespace Grounder

namespace Template

/-- A stretch of a template: a text without a dollar sign, or a slot. -/
inductive Stretch where
  | text (s : String)
  | slot (name : String)

namespace Stretch

/-- The text that writes a stretch. -/
def source : Stretch → String
  | .text s => s
  | .slot name => "$\x7b" ++ name ++ "\x7d"

/-- The tokens that a stretch is read as. -/
def tokens : Stretch → List Token
  | .text s => s.toList.map .char
  | .slot name => [.slot name.toList]

/-- Whether the text of a stretch is read as its tokens. -/
def IsPlain : Stretch → Prop
  | .text s => '$' ∉ s.toList
  | .slot name => isSlotName name.toList = true

/-- Whether there is a text for a stretch. -/
def IsBound (bindings : Bindings) : Stretch → Prop
  | .text _ => True
  | .slot name => (bindings.lookup name).isSome = true

/-- What a stretch becomes. -/
def filled (bindings : Bindings) : Stretch → String
  | .text s => s
  | .slot name => (bindings.lookup name).getD ""

end Stretch

/-! ### Reading -/

/-- The name of a slot holds no closing brace. -/
theorem brace_not_mem_of_isSlotName {name : List Char} (h : isSlotName name = true) :
    '\x7d' ∉ name := by
  intro hmem
  rw [isSlotName, Bool.and_eq_true, List.all_eq_true] at h
  exact absurd (h.2 _ hmem) (by decide)

/-- A text without a dollar sign is plain. A literal is spelled out by `rfl`. -/
theorem isPlain_text {s : String} {cs : List Char} (hs : s = String.ofList cs) (h : '$' ∉ cs) :
    (Stretch.text s).IsPlain := by
  show '$' ∉ s.toList
  rw [hs, String.toList_ofList]
  exact h

/-- A slot is plain if its name is proper. -/
theorem isPlain_slot {name : String} {cs : List Char} (hname : name = String.ofList cs)
    (h : isSlotName cs = true) : (Stretch.slot name).IsPlain := by
  show isSlotName name.toList = true
  rw [hname, String.toList_ofList]
  exact h

/-- The characters of plain stretches are read as the tokens of the stretches. -/
theorem tokens_source (stretches : List Stretch) (h : ∀ s ∈ stretches, s.IsPlain) :
    tokens (stretches.flatMap fun s => s.source.toList) = stretches.flatMap Stretch.tokens := by
  induction stretches with
  | nil => exact tokens_nil
  | cons s rest ih =>
    rw [List.forall_mem_cons] at h
    rw [List.flatMap_cons, List.flatMap_cons, ← ih h.2]
    cases s with
    | text s => exact tokens_append_chars h.1 _
    | slot name =>
      -- The reader takes the whole slot, up to its closing brace.
      have hsource : (Stretch.slot name).source.toList
          = '$' :: '\x7b' :: (name.toList ++ ['\x7d']) := by
        simp [Stretch.source]
      rw [hsource, List.cons_append, List.cons_append, List.append_assoc, List.singleton_append,
        tokens_slot (brace_not_mem_of_isSlotName h.1)]
      rfl

/-- The tokens of plain stretches are proper. -/
theorem isProper_of_mem_tokens {stretches : List Stretch} (h : ∀ s ∈ stretches, s.IsPlain)
    {token : Token} (htoken : token ∈ stretches.flatMap Stretch.tokens) : token.IsProper := by
  obtain ⟨s, hs, htoken⟩ := List.mem_flatMap.1 htoken
  cases s with
  | text s =>
    obtain ⟨c, -, rfl⟩ := List.mem_map.1 htoken
    trivial
  | slot name =>
    rw [List.mem_singleton.1 htoken]
    exact isSlotName_iff.1 (h _ hs)

/-! ### Filling in -/

/-- The tokens of stretches are filled in as the texts of the stretches, one after another. -/
theorem exists_mapM_text (name : String) (bindings : Bindings) (stretches : List Stretch)
    (h : ∀ s ∈ stretches, s.IsBound bindings) :
    ∃ texts, (stretches.flatMap Stretch.tokens).mapM (Token.text name bindings) = .ok texts ∧
      String.join texts = String.join (stretches.map (Stretch.filled bindings)) := by
  induction stretches with
  | nil => exact ⟨[], rfl, rfl⟩
  | cons s rest ih =>
    rw [List.forall_mem_cons] at h
    obtain ⟨texts, htexts, hjoin⟩ := ih h.2
    rw [List.flatMap_cons, List.mapM_append, htexts, List.map_cons, String.join_cons, ← hjoin]
    cases s with
    | text s =>
      have hchars : (Stretch.text s).tokens.mapM (Token.text name bindings)
          = .ok (s.toList.map String.singleton) := by
        rw [Stretch.tokens, List.mapM_map]
        exact Proofs.Support.mapM_eq_map fun _ _ => rfl
      rw [hchars]
      refine ⟨_, rfl, ?_⟩
      rw [String.join_append, join_map_singleton, String.ofList_toList]
      rfl
    | slot slot =>
      obtain ⟨text, htext⟩ := Option.isSome_iff_exists.1 h.1
      have hslot : (Stretch.slot slot).tokens.mapM (Token.text name bindings) = .ok [text] := by
        rw [Stretch.tokens, List.mapM_cons, Token.text, String.ofList_toList, segmentText, htext]
        rfl
      rw [hslot]
      refine ⟨_, rfl, ?_⟩
      rw [List.singleton_append, String.join_cons, Stretch.filled, htext, Option.getD_some]

/-- Filling in a built-in template whose text is cut into plain stretches. -/
theorem result_fill {name source : String} {bindings : Bindings} (stretches : List Stretch)
    (hsource : builtin? name = some source)
    (hcut : source = String.join (stretches.map Stretch.source))
    (hplain : ∀ s ∈ stretches, s.IsPlain) (hbound : ∀ s ∈ stretches, s.IsBound bindings) :
    (Rendering.fill name bindings).result Overrides.none
      = .ok (String.join (stretches.map (Stretch.filled bindings))) := by
  have htokens : tokens source.toList = stretches.flatMap Stretch.tokens := by
    rw [hcut, String.toList_join, List.flatMap_map, tokens_source stretches hplain]
  obtain ⟨t, ht⟩ : ∃ t, parse name source = .ok t := by
    rw [parse_eq, htokens, (firstFault?_eq_none 0).2 fun _ => isProper_of_mem_tokens hplain]
    exact ⟨_, rfl⟩
  have hload : TemplateCache.load Overrides.none name = .ok t := by
    show TemplateCache.loadBuiltin name = _
    rw [TemplateCache.loadBuiltin, hsource]
    exact ht
  obtain ⟨texts, htexts, hjoin⟩ := exists_mapM_text name bindings stretches hbound
  rw [Rendering.fill, Rendering.result, hload]
  show t.render bindings = _
  rw [render_of_parse ht, htokens, htexts, ← hjoin]
  rfl

/-! ### The templates of expressions and effects -/

/-- The value of a function. -/
def termValueCut : List Stretch :=
  [.slot "source", .text ".value(", .slot "symbol_id", .text ", \x7b", .slot "args", .text "\x7d)"]

/-- An atom over one argument. -/
def holdsUnaryCut : List Stretch :=
  [.slot "source", .text ".holds_unary(", .slot "symbol_id", .text ", ", .slot "arg", .text ")"]

/-- An atom over any other number of arguments. -/
def holdsNaryCut : List Stretch :=
  [.slot "source", .text ".holds(", .slot "symbol_id", .text ", \x7b", .slot "args", .text "\x7d)"]

/-- A constraint that is checked during the search. -/
def constraintCheckCut : List Stretch :=
  [.text "Constraint", .slot "id", .text "::satisfied(\x7b", .slot "args", .text "\x7d)"]

/-- A constraint that is decided before the search. -/
def staticConstraintCheckCut : List Stretch :=
  [.text "statics.constraint_holds(", .slot "id", .text ", \x7b", .slot "args", .text "\x7d)"]

/-- An effect. -/
def effectCut : List Stretch :=
  [.text "state.set(", .slot "symbol_id", .text ", \x7b", .slot "args", .text "\x7d, ",
    .slot "value", .text ");  // ", .slot "effect"]

/-- The built-in templates of one line, by their stretches. -/
def lineCuts : List (List Stretch) :=
  [termValueCut, holdsUnaryCut, holdsNaryCut, constraintCheckCut, staticConstraintCheckCut,
    effectCut]

/-- The stretches of the templates of one line are plain. -/
theorem isPlain_lineCuts : ∀ cut ∈ lineCuts, ∀ s ∈ cut, s.IsPlain := by
  simp only [lineCuts, termValueCut, holdsUnaryCut, holdsNaryCut, constraintCheckCut,
    staticConstraintCheckCut, effectCut, List.forall_mem_cons, List.not_mem_nil, false_implies,
    implies_true, and_true]
  and_intros <;> first | exact isPlain_text rfl (by decide) | exact isPlain_slot rfl (by decide)

/-- The value of a function is a question to its source. -/
theorem result_fill_termValue (source id args : String) :
    (Rendering.fill "term_value"
        [("source", source), ("symbol_id", id), ("args", args)]).result Overrides.none
      = .ok (source ++ ".value(" ++ id ++ ", \x7b" ++ args ++ "\x7d)") := by
  rw [result_fill termValueCut rfl rfl (isPlain_lineCuts _ (by simp [lineCuts]))]
  · simp [termValueCut, Stretch.filled, List.lookup_cons, String.append_assoc]
  · simp [termValueCut, Stretch.IsBound, List.lookup_cons]

/-- An atom over one argument is a unary question. -/
theorem result_fill_holdsUnary (source id arg : String) :
    (Rendering.fill "holds_unary"
        [("source", source), ("symbol_id", id), ("arg", arg)]).result Overrides.none
      = .ok (source ++ ".holds_unary(" ++ id ++ ", " ++ arg ++ ")") := by
  rw [result_fill holdsUnaryCut rfl rfl (isPlain_lineCuts _ (by simp [lineCuts]))]
  · simp [holdsUnaryCut, Stretch.filled, List.lookup_cons, String.append_assoc]
  · simp [holdsUnaryCut, Stretch.IsBound, List.lookup_cons]

/-- An atom over any other number of arguments puts them in braces. -/
theorem result_fill_holdsNary (source id args : String) :
    (Rendering.fill "holds_nary"
        [("source", source), ("symbol_id", id), ("args", args)]).result Overrides.none
      = .ok (source ++ ".holds(" ++ id ++ ", \x7b" ++ args ++ "\x7d)") := by
  rw [result_fill holdsNaryCut rfl rfl (isPlain_lineCuts _ (by simp [lineCuts]))]
  · simp [holdsNaryCut, Stretch.filled, List.lookup_cons, String.append_assoc]
  · simp [holdsNaryCut, Stretch.IsBound, List.lookup_cons]

/-- A constraint that is checked during the search is asked by its class. -/
theorem result_fill_constraintCheck (id args : String) :
    (Rendering.fill "constraint_check" [("id", id), ("args", args)]).result Overrides.none
      = .ok ("Constraint" ++ id ++ "::satisfied(\x7b" ++ args ++ "\x7d)") := by
  rw [result_fill constraintCheckCut rfl rfl (isPlain_lineCuts _ (by simp [lineCuts]))]
  · simp [constraintCheckCut, Stretch.filled, List.lookup_cons, String.append_assoc]
  · simp [constraintCheckCut, Stretch.IsBound, List.lookup_cons]

/-- A constraint that is decided before the search is looked up by its number. -/
theorem result_fill_staticConstraintCheck (id args : String) :
    (Rendering.fill "static_constraint_check" [("id", id), ("args", args)]).result Overrides.none
      = .ok ("statics.constraint_holds(" ++ id ++ ", \x7b" ++ args ++ "\x7d)") := by
  rw [result_fill staticConstraintCheckCut rfl rfl (isPlain_lineCuts _ (by simp [lineCuts]))]
  · simp [staticConstraintCheckCut, Stretch.filled, List.lookup_cons, String.append_assoc]
  · simp [staticConstraintCheckCut, Stretch.IsBound, List.lookup_cons]

/-- An effect sets a variable, with the effect itself as a comment. -/
theorem result_fill_effect (id value effect args : String) :
    (Rendering.fill "effect" [("symbol_id", id), ("value", value), ("effect", effect),
        ("args", args)]).result Overrides.none
      = .ok ("state.set(" ++ id ++ ", \x7b" ++ args ++ "\x7d, " ++ value ++ ");  // "
          ++ effect) := by
  rw [result_fill effectCut rfl rfl (isPlain_lineCuts _ (by simp [lineCuts]))]
  · simp [effectCut, Stretch.filled, List.lookup_cons, String.append_assoc]
  · simp [effectCut, Stretch.IsBound, List.lookup_cons]

/-! ### The template of actions -/

/-- The stretches of lines, each of them followed by a line feed. -/
def unlinesCut (cuts : List (List Stretch)) : List Stretch := cuts.flatMap (· ++ [.text "\n"])

/-- Lines are joined line by line, whatever each stretch stands for. -/
theorem join_map_unlinesCut (f : Stretch → String) (hf : f (.text "\n") = "\n")
    (cuts : List (List Stretch)) :
    String.join ((unlinesCut cuts).map f)
      = Text.unlines (cuts.map fun cut => String.join (cut.map f)) := by
  induction cuts with
  | nil => rfl
  | cons cut rest ih =>
    unfold unlinesCut Text.unlines at ih ⊢
    rw [List.flatMap_cons, List.map_append, String.join_append, ih]
    simp [hf]

/-- Plain lines are plain together. -/
theorem isPlain_unlinesCut {cuts : List (List Stretch)} (h : ∀ cut ∈ cuts, ∀ s ∈ cut, s.IsPlain) :
    ∀ s ∈ unlinesCut cuts, s.IsPlain := by
  intro s hs
  obtain ⟨cut, hcut, hs⟩ := List.mem_flatMap.1 hs
  rcases List.mem_append.1 hs with hs | hs
  · exact h cut hcut s hs
  · rw [List.mem_singleton.1 hs]
    exact isPlain_text rfl (by decide)

/-- Filling in a built-in template of several lines, all of them cut into plain stretches. -/
theorem result_fill_lines {name source : String} {bindings : Bindings}
    (cuts : List (List Stretch)) (hsource : builtin? name = some source)
    (hcut : source = Text.unlines (cuts.map fun cut => String.join (cut.map Stretch.source)))
    (hplain : ∀ cut ∈ cuts, ∀ s ∈ cut, s.IsPlain)
    (hbound : ∀ cut ∈ cuts, ∀ s ∈ cut, s.IsBound bindings) :
    (Rendering.fill name bindings).result Overrides.none
      = .ok (Text.unlines
          (cuts.map fun cut => String.join (cut.map (Stretch.filled bindings)))) := by
  rw [result_fill (unlinesCut cuts) hsource, join_map_unlinesCut _ rfl]
  · rw [join_map_unlinesCut _ rfl, hcut]
  · exact isPlain_unlinesCut hplain
  · intro s hs
    obtain ⟨cut, hmem, hs⟩ := List.mem_flatMap.1 hs
    rcases List.mem_append.1 hs with hs | hs
    · exact hbound cut hmem s hs
    · rw [List.mem_singleton.1 hs]
      trivial

/-- The unit of an action. -/
def actionUnitText (domain instanceName action params class_ arity preconditions effects : String) :
    String := Text.unlines [
  "// Generated by groundwork for " ++ domain ++ "/" ++ instanceName ++ ". Do not edit.",
  "// action " ++ action ++ "(" ++ params ++ ")",
  "#pragma once",
  "",
  "#include \"runtime.hxx\"",
  "",
  "class " ++ class_ ++ " : public ActionBase \x7b",
  "public:",
  "    static constexpr const char* NAME = \"" ++ action ++ "\";",
  "    static constexpr unsigned ARITY = " ++ arity ++ ";",
  "",
  "    bool applicable(const State& state, const StaticData& statics, " ++
    "const Binding& binding) const \x7b",
  preconditions,
  "        return true;",
  "    \x7d",
  "",
  "    void apply(State& state, const StaticData& statics, const Binding& binding) const \x7b",
  effects,
  "    \x7d",
  "\x7d;"]

/-- The template of an action, line by line. -/
def actionCuts : List (List Stretch) := [
  [.text "// Generated by groundwork for ", .slot "domain", .text "/", .slot "instance",
    .text ". Do not edit."],
  [.text "// action ", .slot "action_name", .text "(", .slot "params_doc", .text ")"],
  [.text "#pragma once"],
  [.text ""],
  [.text "#include \"runtime.hxx\""],
  [.text ""],
  [.text "class ", .slot "class_name", .text " : public ActionBase \x7b"],
  [.text "public:"],
  [.text "    static constexpr const char* NAME = \"", .slot "action_name", .text "\";"],
  [.text "    static constexpr unsigned ARITY = ", .slot "arity", .text ";"],
  [.text ""],
  [.text "    bool applicable(const State& state, const StaticData& statics, ",
    .text "const Binding& binding) const \x7b"],
  [.slot "preconditions"],
  [.text "        return true;"],
  [.text "    \x7d"],
  [.text ""],
  [.text "    void apply(State& state, const StaticData& statics, ",
    .text "const Binding& binding) const \x7b"],
  [.slot "effects"],
  [.text "    \x7d"],
  [.text "\x7d;"]]

/-- The template of an action puts the statements of the precondition in front of `return true;`
in `applicable`, and those of the effects into `apply`. -/
theorem result_fill_action
    (domain instanceName action params class_ arity preconditions effects : String) :
    (Rendering.fill "action" [("domain", domain), ("instance", instanceName),
        ("action_name", action), ("params_doc", params), ("class_name", class_), ("arity", arity),
        ("preconditions", preconditions), ("effects", effects)]).result Overrides.none
      = .ok (actionUnitText domain instanceName action params class_ arity preconditions
          effects) := by
  rw [result_fill_lines actionCuts rfl rfl]
  · simp [actionCuts, actionUnitText, Stretch.filled, List.lookup_cons, String.append_assoc]
  · simp only [actionCuts, List.forall_mem_cons, List.not_mem_nil, false_implies, implies_true,
      and_true]
    and_intros <;> first | exact isPlain_text rfl (by decide) | exact isPlain_slot rfl (by decide)
  · simp [actionCuts, Stretch.IsBound, List.lookup_cons]

end Template

end Grounder
