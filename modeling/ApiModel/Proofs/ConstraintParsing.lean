import ApiModel.ConstraintParser
import ApiModel.Proofs.ConstraintQueue

/-!
# Parsing the constraints

When all references have been settled, the parser is asked for each constraint
of the queue. To speak of these calls, the pass is stated once more for parsers
with effects. For a parser that has none it is the same pass; for a parser that
keeps a record of its calls, the record tells how often it has been asked, in
which order and for what.

One call doesn't get in the way of another. It sets the expression of its own
constraint, if any, and the queue has each constraint once, so the constraints
still to come are untouched and those already done stay as they are.
-/

namespace ApiModel

/-! ## Parsers with effects -/

/-- What a `ConstraintParser` is asked. -/
structure ParserCall where
  model : Model
  method : Method
  source : String

/-- The answer of `parser` to the `call`. -/
def ParserCall.answer (call : ParserCall) (parser : ConstraintParser) : Except String Expr :=
  parser call.model call.method call.source

/-- Answers as `parser` does, and keeps a record of the calls. -/
def ConstraintParser.logged (parser : ConstraintParser) (model : Model) (method : Method)
    (source : String) : StateM (List ParserCall) (Except String Expr) := do
  modify (· ++ [⟨model, method, source⟩])
  return parser model method source

namespace ConstraintPass

/-- The pass `p` after the answer on a `constraint`. -/
def answered (p : ConstraintPass) (r : ConstraintRef) (method : Method) (constraint : Constraint) :
    Except String Expr → ConstraintPass
  | .ok e => { p with model := p.model.setExpression r e }
  | .error cause => { p with
      diagnostics := p.diagnostics ++ [.constraintParse constraint.concept.name method.name cause] }

variable {M : Type → Type} [Monad M]

/-- Parses the constraint at `r` with a parser that may have effects. -/
def stepM (parser : Model → Method → String → M (Except String Expr)) (p : ConstraintPass)
    (r : ConstraintRef) : M ConstraintPass :=
  match p.model.method? r.method, p.model.constraint? r with
  | some method, some constraint =>
    p.answered r method constraint <$> parser p.model method constraint.source
  | _, _ => pure p

end ConstraintPass

/-- Completes the draft `d` with a parser that may have effects. -/
def Draft.buildM {M : Type → Type} [Monad M] (d : Draft)
    (parser : Model → Method → String → M (Except String Expr)) :
    M (Except AnalysisError Analysis) :=
  match d.fixup.model.inheritanceCycle? with
  | some cycle => pure (.error (.circularInheritance cycle))
  | none => do
    let p ← d.fixup.constraints.foldlM (ConstraintPass.stepM parser)
      ⟨d.fixup.model, d.fixup.diagnostics⟩
    return .ok ⟨p.model, p.diagnostics⟩

section Pure

variable {M : Type → Type} [Monad M] [LawfulMonad M] (parser : ConstraintParser)

theorem ConstraintPass.step_eq {p : ConstraintPass} {r : ConstraintRef} {x : Method}
    {c : Constraint} (hx : p.model.method? r.method = some x)
    (hc : p.model.constraint? r = some c) :
    p.step parser r = p.answered r x c (parser p.model x c.source) := by
  simp only [step, hx, hc]
  cases parser p.model x c.source <;> rfl

theorem ConstraintPass.stepM_pure (p : ConstraintPass) (r : ConstraintRef) :
    stepM (fun model method source => (pure (parser model method source) : M _)) p r =
      pure (p.step parser r) := by
  unfold stepM
  split
  · rename_i x c hx hc
    rw [map_pure, step_eq parser hx hc]
  · rename_i hnone
    congr 1
    unfold step
    split
    · rename_i x c hx hc
      exact absurd hc (hnone x c hx)
    · rfl

/-- Without effects `buildM` is `build`. -/
theorem Draft.buildM_pure (d : Draft) :
    d.buildM (fun model method source => (pure (parser model method source) : M _)) =
      pure (d.build (some parser)) := by
  have hstep : ConstraintPass.stepM
      (fun model method source => (pure (parser model method source) : M _)) =
      fun p r => pure (ConstraintPass.step parser p r) :=
    funext fun p => funext fun r => ConstraintPass.stepM_pure parser p r
  simp only [Draft.buildM, Draft.build, hstep, List.foldlM_pure, pure_bind, parseConstraints]
  rcases d.fixup.model.inheritanceCycle? with _ | cycle <;> rfl

end Pure

/-! ## Setting an expression -/

namespace Model

variable {m m' : Model}

theorem definedService?_modifyService (id id' : ServiceId) (f : DefinedService → DefinedService) :
    (m.modifyService id f).definedService? id' =
      if id = id' then (m.definedService? id').map f else m.definedService? id' := by
  rw [definedService?, definedService?, service?_modifyService]
  split
  · rcases m.service? id' with _ | s
    · rfl
    · cases s <;> rfl
  · rfl

theorem method?_modifyMethod (r r' : MethodRef) (f : Method → Method) :
    (m.modifyMethod r f).method? r' =
      if r = r' then (m.method? r').map f else m.method? r' := by
  rcases r with ⟨id, i⟩
  rcases r' with ⟨id', i'⟩
  rw [method?, method?, modifyMethod, definedService?_modifyService]
  by_cases hid : id = id'
  · subst hid
    rw [if_pos rfl]
    rcases m.definedService? id with _ | s
    · simp
    · by_cases hi : i = i' <;> simp [DefinedService.modifyMethod, hi]
  · rw [if_neg hid, if_neg fun h => hid (congrArg MethodRef.service h)]

theorem constraint?_setExpression (r r' : ConstraintRef) (e : Expr) :
    (m.setExpression r e).constraint? r' =
      if r = r' then (m.constraint? r').map ({ · with expression := some e })
      else m.constraint? r' := by
  rcases r with ⟨method, j⟩
  rcases r' with ⟨method', j'⟩
  rw [constraint?, constraint?, setExpression, method?_modifyMethod]
  by_cases hmethod : method = method'
  · subst hmethod
    rw [if_pos rfl]
    rcases m.method? method with _ | x
    · simp
    · by_cases hj : j = j' <;> simp [hj]
  · rw [if_neg hmethod, if_neg fun h => hmethod (congrArg ConstraintRef.method h)]

theorem Reparsed.method? (h : m.Reparsed m') (r : MethodRef) :
    Option.Rel Method.Reparsed (m.method? r) (m'.method? r) :=
  optionRel_bind (h.definedService? r.service) fun _ _ hs => optionRel_getElem? hs.2 r.index

theorem Reparsed.constraint? (h : m.Reparsed m') (r : ConstraintRef) :
    Option.Rel Constraint.Reparsed (m.constraint? r) (m'.constraint? r) :=
  optionRel_bind (h.method? r.method) fun _ _ hx => optionRel_getElem? hx.2 r.index

theorem method?_settled (m : Model) (r : MethodRef) :
    m.settled.method? r = (m.method? r).map (·.mapRefs m.settledType) := by
  rw [Model.method?, Model.method?, Model.definedService?, Model.definedService?, service?_settled]
  rcases m.service? r.service with _ | s
  · rfl
  · cases s with
    | defined s => exact List.getElem?_map
    | undefined n => rfl

theorem constraint?_settled (m : Model) (r : ConstraintRef) :
    m.settled.constraint? r = m.constraint? r := by
  rw [Model.constraint?, Model.constraint?, method?_settled]
  rcases m.method? r.method with _ | x <;> rfl

end Model

/-! ## The pass -/

/-- A constraint that has been parsed: its position `ref`, the `constraint` as it is in the end, and the
`call` made for it. -/
structure ParsedConstraint where
  ref : ConstraintRef
  constraint : Constraint
  call : ParserCall

namespace ParsedConstraint

/-- Why `parser` can't read the constraint. -/
def cause? (x : ParsedConstraint) (parser : ConstraintParser) : Option String :=
  match x.call.answer parser with
  | .ok _ => none
  | .error cause => some cause

/-- The finding on a constraint that can't be read, with its `cause?`. -/
def report? (x : ParsedConstraint) (parser : ConstraintParser) : Option Diagnostic :=
  (x.cause? parser).map (.constraintParse x.constraint.concept.name x.call.method.name)

/-- In the model `m` at the end, the constraint has the expression that the parser has given. The
parser has been asked about its method and its source, in a model that differs from `m` in
expressions at most. -/
structure IsRead (x : ParsedConstraint) (parser : ConstraintParser) (m : Model) : Prop where
  constraint : m.constraint? x.ref = some x.constraint
  model : x.call.model.Reparsed m
  types : ∀ slot, x.call.model.typeAt? slot = m.typeAt? slot
  services : ∀ slot, x.call.model.serviceAt? slot = m.serviceAt? slot
  method : x.call.model.method? x.ref.method = some x.call.method
  source : x.call.source = x.constraint.source
  expression : ∀ e, x.constraint.expression = some e ↔ x.call.answer parser = .ok e

end ParsedConstraint

namespace ConstraintPass

variable {parser : ConstraintParser} {p : ConstraintPass} {r : ConstraintRef}

theorem run_stepM {x : Method} {c : Constraint} (hx : p.model.method? r.method = some x)
    (hc : p.model.constraint? r = some c) (log : List ParserCall) :
    (p.stepM parser.logged r).run log =
      (p.step parser r, log ++ [⟨p.model, x, c.source⟩]) := by
  rw [step_eq parser hx hc]
  simp only [stepM, hx, hc]
  rfl

theorem constraint?_step_ne {r' : ConstraintRef} (h : r ≠ r') :
    (p.step parser r).model.constraint? r' = p.model.constraint? r' := by
  unfold step
  split
  · split
    · exact (Model.constraint?_setExpression r r' _).trans (if_neg h)
    · rfl
  · rfl

/-- What a `step` does for its own constraint. -/
theorem step_self {x : Method} {c : Constraint} (hx : p.model.method? r.method = some x)
    (hc : p.model.constraint? r = some c) (hnone : c.expression = none) :
    ∃ c', (p.step parser r).model.constraint? r = some c' ∧ c'.source = c.source ∧
      (∀ e, c'.expression = some e ↔ parser p.model x c.source = .ok e) ∧
      (p.step parser r).diagnostics = p.diagnostics ++
        (ParsedConstraint.report? ⟨r, c', ⟨p.model, x, c.source⟩⟩ parser).toList := by
  rw [step_eq parser hx hc]
  simp only [ParsedConstraint.report?, ParsedConstraint.cause?, ParserCall.answer]
  rcases parser p.model x c.source with cause | e
  · exact ⟨c, hc, rfl, by simp [hnone], rfl⟩
  · refine ⟨{ c with expression := some e }, ?_, rfl, by simp, (List.append_nil _).symm⟩
    exact (Model.constraint?_setExpression r r e).trans (by rw [if_pos rfl, hc]; rfl)

theorem reparsed_foldl (parser : ConstraintParser) (queue : List ConstraintRef)
    (p : ConstraintPass) : p.model.Reparsed (queue.foldl (step parser) p).model :=
  reparsed_parseConstraints (some parser) queue p

/-- The `parser` is asked once for each constraint of the `queue`, in order. -/
theorem run_foldlM (parser : ConstraintParser) {queue : List ConstraintRef} (hnodup : queue.Nodup)
    (hqueue : ∀ r ∈ queue, ∃ c, p.model.constraint? r = some c ∧ c.expression = none)
    (log : List ParserCall) :
    ∃ parsed : List ParsedConstraint,
      (queue.foldlM (stepM parser.logged) p).run log =
        (queue.foldl (step parser) p, log ++ parsed.map (·.call)) ∧
      parsed.map (·.ref) = queue ∧
      (∀ x ∈ parsed, x.IsRead parser (queue.foldl (step parser) p).model) ∧
      (queue.foldl (step parser) p).diagnostics =
        p.diagnostics ++ parsed.filterMap (·.report? parser) ∧
      ∀ r, r ∉ queue →
        (queue.foldl (step parser) p).model.constraint? r = p.model.constraint? r := by
  induction queue generalizing p log with
  | nil => exact ⟨[], by simp; rfl, rfl, by simp, by simp, by simp⟩
  | cons r queue ih =>
    obtain ⟨hr, hnodup⟩ := List.nodup_cons.mp hnodup
    obtain ⟨c, hc, hnone⟩ := hqueue r List.mem_cons_self
    obtain ⟨x, hx, -⟩ := Option.bind_eq_some_iff.mp hc
    obtain ⟨c', hc', hsource, hexpression, hdiagnostics⟩ := step_self hx hc hnone
    have hqueue' : ∀ r' ∈ queue, ∃ c, (p.step parser r).model.constraint? r' = some c ∧
        c.expression = none := by
      intro r' hr'
      have hne : r ≠ r' := by
        rintro rfl
        exact hr hr'
      rw [constraint?_step_ne hne]
      exact hqueue r' (List.mem_cons_of_mem _ hr')
    obtain ⟨parsed, hrun, hrefs, hread, hreports, hrest⟩ :=
      ih hnodup hqueue' (log ++ [⟨p.model, x, c.source⟩])
    -- The rest of the queue doesn't hold `r`, so its constraint stays as this call leaves it.
    have hre : p.model.Reparsed (queue.foldl (step parser) (p.step parser r)).model :=
      (p.reparsed_step parser r).trans (reparsed_foldl parser queue _)
    refine ⟨⟨r, c', ⟨p.model, x, c.source⟩⟩ :: parsed, ?_, ?_, ?_, ?_, ?_⟩
    · rw [List.foldlM_cons, StateT.run_bind, run_stepM hx hc]
      refine hrun.trans ?_
      rw [List.map_cons, List.append_assoc]
      rfl
    · rw [List.map_cons, hrefs]
    · refine List.forall_mem_cons.mpr ⟨?_, hread⟩
      exact {
        constraint := (hrest r hr).trans hc'
        model := hre
        types := fun slot => (hre.typeAt? slot).symm
        services := fun slot => (hre.serviceAt? slot).symm
        method := hx
        source := hsource.symm
        expression := hexpression }
    · rw [List.foldl_cons, hreports, hdiagnostics, List.append_assoc, List.filterMap_cons]
      rcases ParsedConstraint.report? ⟨r, c', ⟨p.model, x, c.source⟩⟩ parser <;> rfl
    · intro r' hr'
      obtain ⟨hne, hr'⟩ := not_or.mp (mt List.mem_cons.mpr hr')
      exact (hrest r' hr').trans (constraint?_step_ne (Ne.symm hne))

end ConstraintPass

/-! ## Finished models -/

namespace Model.Stores

variable {m m' : Model} {reading reading' : Reading} {r : ConstraintRef}
  {origin : MethodDecl × ConstraintDecl}

theorem settled (h : m.Stores reading r origin) : m.settled.Stores reading r origin := by
  obtain ⟨x, c, hx, hc, hconcept, hmatch⟩ := h
  refine ⟨x.mapRefs m.settledType, c, ?_, ?_, hconcept, hmatch⟩
  · rw [method?_settled, hx]
    rfl
  · rw [constraint?_settled, hc]

theorem reparsed (h : m.Stores reading r origin) (hre : m.Reparsed m')
    (hr : ∀ x, reading'.expression x) : m'.Stores reading' r origin := by
  obtain ⟨x, c, hx, hc, hconcept, hmatch⟩ := h
  have hxs := hre.method? r.method
  have hcs := hre.constraint? r
  rw [hx] at hxs
  rw [hc] at hcs
  rcases hx' : m'.method? r.method with _ | x' <;> rw [hx'] at hxs
  · cases hxs
  rcases hc' : m'.constraint? r with _ | c' <;> rw [hc'] at hcs
  · cases hcs
  cases hxs with
  | some hxx =>
    cases hcs with
    | some hcc =>
      refine ⟨x', c', hx', hc', ?_, ?_⟩
      · rw [hxx.1]
        exact hconcept
      · rw [hcc]
        exact { hmatch with expression := hr _ }

end Model.Stores

namespace Draft

variable {ds : List Declaration}

theorem mem_constraints_declareEach {m : Model} (hre : (finishedModel ds).Reparsed m)
    (r : ConstraintRef) :
    r ∈ (declareEach {} ds).constraints ↔ (m.constraint? r).isSome := by
  rw [constraints_declareEach, Model.mem_constraintRefs, ← Model.constraint?_settled]
  have hr := hre.constraint? r
  generalize (finishedModel ds).constraint? r = x at hr ⊢
  generalize m.constraint? r = y at hr ⊢
  cases hr <;> rfl

/-- No constraint of the `finishedModel` has an expression before it is parsed. -/
theorem expression_finishedModel {r : ConstraintRef} {c : Constraint}
    (hc : (finishedModel ds).constraint? r = some c) : c.expression = none := by
  obtain ⟨origins, -, hstores⟩ := origins_declareEach ds
  have hr : r ∈ (declareEach {} ds).constraints :=
    (mem_constraints_declareEach (.refl _) r).mpr (Option.isSome_iff_exists.mpr ⟨c, hc⟩)
  obtain ⟨origin, -, hstored⟩ := exists_of_forall₂ hstores.flip hr
  obtain ⟨x, c', -, hc', -, hmatch⟩ := Model.Stores.settled hstored
  obtain rfl := Option.some.inj (hc.symm.trans hc')
  exact hmatch.expression

theorem run_buildM {d : Draft} {parser : ConstraintParser} {p : ConstraintPass}
    {calls : List ParserCall} (hacyclic : d.fixup.model.inheritanceCycle? = none)
    (hrun : (d.constraints.foldlM (ConstraintPass.stepM parser.logged)
      ⟨d.fixup.model, d.fixup.diagnostics⟩).run [] = (p, calls)) :
    (d.buildM parser.logged).run [] = (.ok ⟨p.model, p.diagnostics⟩, calls) := by
  simp only [buildM, hacyclic, show d.fixup.constraints = d.constraints from rfl]
  rw [StateT.run_bind, hrun]
  rfl

/-- Whatever has been declared by `ds`, the `parser` is asked once for each constraint of the model,
in the order of the declarations, when all references have been settled. What it answers becomes the
`expression` of the constraint or a finding that names the constraint and its method, and that is
all that changes. -/
theorem constraints_parsed_once (ds : List Declaration) :
    (∀ (M : Type → Type) [Monad M] [LawfulMonad M] (parser : ConstraintParser),
      (declareEach {} ds).buildM
        (fun model method source => (pure (parser model method source) : M _)) =
        pure ((declareEach {} ds).build (some parser))) ∧
    (∀ parser a, (declareEach {} ds).build (some parser) = .ok a →
      ∃ (parsed : List ParsedConstraint) (origins : List (MethodDecl × ConstraintDecl)),
        ((declareEach {} ds).buildM parser.logged).run [] = (.ok a, parsed.map (·.call)) ∧
        parsed.map (·.ref) = (declareEach {} ds).constraints ∧
        (declareEach {} ds).constraints.Nodup ∧
        (∀ r, r ∈ (declareEach {} ds).constraints ↔ (a.model.constraint? r).isSome) ∧
        origins.Sublist (ds.flatMap (·.constraints)) ∧
        List.Forall₂ (a.model.Stores a.model.resolution) (declareEach {} ds).constraints origins ∧
        (∀ x ∈ parsed, x.IsRead parser a.model) ∧
        a.diagnostics = (declareEach {} ds).fixup.diagnostics ++ parsed.filterMap (fun x =>
          (x.cause? parser).map fun cause => ⟨.error, .constraintParse,
            s!"can't parse constraint '{x.constraint.concept.name.display}' of method '{x.call.method.name.display}': {cause}"⟩) ∧
        (declareEach {} ds).fixup.model.Reparsed a.model) ∧
    ∀ a, (declareEach {} ds).build none = .ok a →
      a.model = (declareEach {} ds).fixup.model ∧
      a.diagnostics = (declareEach {} ds).fixup.diagnostics ∧
      ∀ r c, a.model.constraint? r = some c → c.expression = none := by
  obtain ⟨hs, hb⟩ := sound_declareEach ds
  have hmodel : (declareEach {} ds).fixup.model = finishedModel ds := fixup_model hs hb
  refine ⟨fun M _ _ parser => buildM_pure parser _, fun parser a ha => ?_, fun a ha => ?_⟩
  · have hre := reparsed_build hs hb ha
    obtain ⟨origins, hsub, hstores⟩ := origins_declareEach ds
    have hnodup : (declareEach {} ds).constraints.Nodup := by
      rw [constraints_declareEach]
      exact Model.nodup_constraintRefs _
    have hqueue : ∀ r ∈ (declareEach {} ds).constraints, ∃ c,
        (declareEach {} ds).fixup.model.constraint? r = some c ∧ c.expression = none := by
      intro r hr
      rw [hmodel]
      obtain ⟨c, hc⟩ := Option.isSome_iff_exists.mp
        ((mem_constraints_declareEach (.refl _) r).mp hr)
      exact ⟨c, hc, expression_finishedModel hc⟩
    obtain ⟨parsed, hrun, hrefs, hread, hreports, -⟩ := ConstraintPass.run_foldlM parser
      (p := ⟨_, (declareEach {} ds).fixup.diagnostics⟩) hnodup hqueue []
    simp only [build] at ha
    split at ha
    · cases ha
    · rename_i hacyclic
      obtain rfl := Except.ok.inj ha
      refine ⟨parsed, origins, ?_, hrefs, hnodup, mem_constraints_declareEach hre, hsub,
        hstores.imp fun r origin h => h.settled.reparsed hre fun _ => trivial, hread, hreports,
        hmodel ▸ hre⟩
      exact run_buildM hacyclic hrun
  · simp only [build] at ha
    split at ha
    · cases ha
    · obtain rfl := Except.ok.inj ha
      exact ⟨rfl, rfl, fun r c hc => expression_finishedModel (hmodel ▸ hc)⟩

/-- A service that stops at a constraint without a name, with a constraint that can't be read
before it, and a constraint on a type that is declared later. -/
def constrainedDeclarations : List Declaration := [
  .service {
    name := "VmsService"
    space := "model.services"
    methods := [
      { name := "add", parameters := [{ name := "vm", type := { name := "Vm" } }],
        constraints := [
          { name := "known", source := "disk.size" },
          { name := "mandatory", source := "vm.name" }] },
      { name := "remove", constraints := [
          { name := "_", source := "vm" },
          { name := "late", source := "vm" }] }] },
  .service {
    name := "DisksService"
    space := "model.services"
    methods := [{ name := "list", constraints := [{ name := "typed", source := "! Vm.name" }] }] },
  .type { name := "Vm", space := "model.types", body := .struct .none [] }]

theorem constraints_parsed_once_stopped : ∃ (a : Analysis) (parsed : List ParsedConstraint),
    (declareEach {} constrainedDeclarations).build (some .dotted) = .ok a ∧
      ((declareEach {} constrainedDeclarations).buildM ConstraintParser.dotted.logged).run [] =
        (.ok a, parsed.map (·.call)) ∧
      parsed.map (·.ref) = [⟨⟨⟨0⟩, 0⟩, 0⟩, ⟨⟨⟨0⟩, 0⟩, 1⟩, ⟨⟨⟨1⟩, 0⟩, 0⟩] ∧
      (∀ x ∈ parsed, x.IsRead .dotted a.model) ∧
      a.diagnostics = [⟨.error, .constraintParse,
        "can't parse constraint 'known' of method 'add': unknown name 'disk'"⟩] := by
  have hsome : (((declareEach {} constrainedDeclarations).build (some .dotted)).toOption.filter
      fun a => a.diagnostics = [⟨.error, .constraintParse,
        "can't parse constraint 'known' of method 'add': unknown name 'disk'"⟩]).isSome = true := by
    decide +kernel
  have hqueue : (declareEach {} constrainedDeclarations).constraints =
      [⟨⟨⟨0⟩, 0⟩, 0⟩, ⟨⟨⟨0⟩, 0⟩, 1⟩, ⟨⟨⟨1⟩, 0⟩, 0⟩] := by
    decide +kernel
  obtain ⟨a, ha⟩ := Option.isSome_iff_exists.mp hsome
  obtain ⟨ha, hreports⟩ := Option.filter_eq_some_iff.mp ha
  have ha' := eq_ok_of_toOption ha
  obtain ⟨parsed, -, hrun, hrefs, -, -, -, -, hread, -, -⟩ :=
    (constraints_parsed_once constrainedDeclarations).2.1 _ a ha'
  exact ⟨a, parsed, ha', hrun, hrefs.trans hqueue, hread, of_decide_eq_true hreports⟩

end Draft

end ApiModel
