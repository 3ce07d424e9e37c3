import ApiModel.Draft.Declare

/-!
# What a declaration step ensures

A declaration step runs on a draft and either gives a value or stops at an
invalid name; the draft it leaves counts in both cases. `Ensures` says what
holds of the outcome, with one condition for each of the two cases. Steps are
taken apart at their binds, so a claim about a step is proved along its text.
-/

namespace ApiModel.Declare

variable {α β : Type}

/-- Runs the step `x` on the draft `d`. -/
def exec (x : Declare α) (d : Draft) : Except InvalidName α × Draft :=
  x.run.run d

/-- From the draft `d`, the step gives a value and a draft as in `done`, or leaves a draft as in
`stopped`. Goals about it must not be run, only taken apart. -/
@[irreducible]
def Ensures (x : Declare α) (d : Draft) (done : α → Draft → Prop) (stopped : Draft → Prop) :
    Prop :=
  match x.exec d with
  | (.ok a, d') => done a d'
  | (.error _, d') => stopped d'

/-! ## Single steps -/

theorem exec_pure (a : α) (d : Draft) : (pure a : Declare α).exec d = (.ok a, d) := rfl

theorem exec_throw (e : InvalidName) (d : Draft) :
    (throw e : Declare α).exec d = (.error e, d) := rfl

theorem exec_get (d : Draft) : (get : Declare Draft).exec d = (.ok d, d) := rfl

theorem exec_lift (x : StateM Draft α) (d : Draft) :
    exec (liftM x) d = (.ok (x d).1, (x d).2) := rfl

theorem exec_modify (f : Draft → Draft) (d : Draft) :
    (modify f : Declare PUnit).exec d = (.ok ⟨⟩, f d) := rfl

theorem exec_updateModel (f : Model → Model) (d : Draft) :
    (updateModel f).exec d = (.ok (), { d with model := f d.model }) := rfl

theorem exec_allocate (f : Model → α × Model) (d : Draft) :
    (allocate f).exec d = (.ok (f d.model).1, { d with model := (f d.model).2 }) := rfl

theorem exec_bind (x : Declare α) (f : α → Declare β) (d : Draft) :
    (x >>= f).exec d = match x.exec d with
      | (.ok a, d') => (f a).exec d'
      | (.error e, d') => (.error e, d') := by
  show ((x >>= f : ExceptT _ _ _).run.run d : Except InvalidName β × Draft) = _
  simp only [ExceptT.run_bind, StateT.run_bind, exec]
  rcases h : (x.run.run d : Except InvalidName α × Draft) with ⟨r, d'⟩
  cases r <;> rfl

theorem forM_cons (f : α → Declare PUnit) (a : α) (as : List α) :
    (a :: as).forM f = (f a >>= fun _ => as.forM f) := rfl

theorem discard_eq_bind (x : Declare α) : (discard x : Declare PUnit) = x >>= fun _ => pure () :=
  map_eq_pure_bind (Function.const α PUnit.unit) x

/-! ## Rules -/

variable {x : Declare α} {d : Draft} {done : α → Draft → Prop} {stopped : Draft → Prop}

theorem Ensures.of_exec {a : α} {d' : Draft} (h : x.exec d = (.ok a, d')) (hd : done a d') :
    Ensures x d done stopped := by
  rw [Ensures, h]; exact hd

theorem Ensures.of_stop {e : InvalidName} {d' : Draft} (h : x.exec d = (.error e, d'))
    (hd : stopped d') : Ensures x d done stopped := by
  rw [Ensures, h]; exact hd

theorem Ensures.pure {a : α} (h : done a d) : Ensures (Pure.pure a) d done stopped :=
  .of_exec (exec_pure a d) h

theorem Ensures.bind {f : α → Declare β} {done : β → Draft → Prop}
    (h : Ensures x d (fun a d' => Ensures (f a) d' done stopped) stopped) :
    Ensures (x >>= f) d done stopped := by
  rw [Ensures, exec_bind]
  rw [Ensures] at h
  rcases hx : x.exec d with ⟨_ | a, d'⟩ <;> rw [hx] at h
  · exact h
  · simp only at h
    rw [Ensures] at h
    exact h

/-- `Ensures` after a first step `x` whose outcome is known. -/
theorem Ensures.bind_exec {f : α → Declare β} {done : β → Draft → Prop} {a : α} {d' : Draft}
    (hx : x.exec d = (.ok a, d')) (h : Ensures (f a) d' done stopped) :
    Ensures (x >>= f) d done stopped :=
  .bind (.of_exec hx h)

theorem Ensures.imp {done' : α → Draft → Prop} {stopped' : Draft → Prop}
    (h : Ensures x d done stopped) (hdone : ∀ a d', done a d' → done' a d')
    (hstop : ∀ d', stopped d' → stopped' d') : Ensures x d done' stopped' := by
  rw [Ensures] at h ⊢
  rcases hx : x.exec d with ⟨_ | a, d'⟩ <;> rw [hx] at h
  · exact hstop _ h
  · exact hdone _ _ h

theorem Ensures.discard {I : Draft → Prop} (h : Ensures x d (fun _ => I) stopped) :
    Ensures (Functor.discard x) d (fun _ => I) stopped := by
  rw [discard_eq_bind]
  exact .bind (h.imp (fun _ _ hd => .pure hd) fun _ hd => hd)

/-- By `checked`, a name is read without touching the draft; only a name without words stops. -/
theorem ensures_checked {role : NameRole} {text : String} {name : Name}
    {done : Name → Draft → Prop} (hdone : name.isEmpty = false → done name d)
    (hstop : name.isEmpty = true → stopped d) :
    Ensures (checked role text name) d done stopped := by
  unfold checked
  split
  · exact .of_stop (exec_throw _ d) (hstop ‹_›)
  · exact .pure (hdone (by simpa using ‹¬name.isEmpty = true›))

end ApiModel.Declare
