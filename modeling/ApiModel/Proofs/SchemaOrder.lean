import ApiModel.Compile
import ApiModel.Proofs.Layout

/-!
# Schemas of rearranged declarations

The schema that is compiled from unambiguous declarations is the same in
whatever order they are given, and also if members or constants that have names
of their own are given in another order. What is reported along the way is the
same up to order.
-/

namespace ApiModel

/-- `ds'` are the declarations `ds` in another order, possibly with the members of structs and the
constants of enumerations in another order, too. -/
def Rearranged (ds ds' : List Declaration) : Prop :=
  ∃ es, ds.Perm es ∧ List.Forall₂ (Declaration.Like TypeDecl.Alike) es ds'

section Rearranged

variable {ds ds' : List Declaration}

theorem Rearranged.corresponds (h : Rearranged ds ds') : Corresponds TypeDecl.Alike ds ds' := by
  obtain ⟨es, hp, hlike⟩ := h
  constructor
  · intro x hx
    exact exists_of_forall₂ hlike.flip (hp.mem_iff.mp hx)
  · intro y hy
    obtain ⟨x, hx, hxy⟩ := exists_of_forall₂ hlike hy
    exact ⟨x, hp.mem_iff.mpr hx, hxy⟩

theorem Rearranged.unambiguous (h : Rearranged ds ds') (hu : Unambiguous ds) :
    Unambiguous ds' := by
  obtain ⟨es, hp, hlike⟩ := h
  have hes := hu.perm hp
  constructor
  · rw [← filterMap_eq_of_forall₂ hlike fun _ _ hxy => (hxy.typeName? fun _ _ => id).symm]
    exact hes.types
  · rw [← filterMap_eq_of_forall₂ hlike fun _ _ hxy => hxy.serviceName?.symm]
    exact hes.services
  · rw [← (forall₂_filter hlike fun _ _ hxy => hxy.isRoot.symm).length_eq]
    exact hes.roots

/-! ## Reports of the analysis -/

variable (h : Rearranged ds ds') (hu : Unambiguous ds) (ha : Draft.Accepts {} ds)

include h hu ha

theorem Rearranged.clashes_perm :
    (Draft.declareEach {} ds).diagnostics.Perm (Draft.declareEach {} ds').diagnostics := by
  have ha' := (h.corresponds.accepts (fun _ _ => id) hu (h.unambiguous hu)).mp ha
  rw [Draft.diagnostics_of_unambiguous hu ha,
    Draft.diagnostics_of_unambiguous (h.unambiguous hu) ha']
  obtain ⟨es, hp, hlike⟩ := h
  rw [← filterMap_eq_of_forall₂ hlike fun _ _ hxy => (hxy.clash? fun _ _ => id).symm]
  exact hp.filterMap _

theorem Rearranged.diagnostics_perm : (Draft.declareEach {} ds).fixup.diagnostics.Perm
    (Draft.declareEach {} ds').fixup.diagnostics := by
  have hc := h.corresponds
  have hu' := h.unambiguous hu
  have ha' := (hc.accepts (fun _ _ => id) hu hu').mp ha
  obtain ⟨hs, hb⟩ := Draft.sound_declareEach ds
  obtain ⟨hs', hb'⟩ := Draft.sound_declareEach ds'
  have htypes := NameSet.toList_eq fun n =>
    hc.mem_unresolvedTypes (fun _ _ => id) hu hu' ha (n := n)
  have hservices := NameSet.toList_eq fun n =>
    hc.mem_unresolvedServices (fun _ _ => id) hu hu' ha (n := n)
  rw [Draft.fixup_diagnostics hs hb, Draft.fixup_diagnostics hs' hb']
  refine ((h.clashes_perm hu ha).append ?_).append ?_
  · refine (Draft.reports_types_perm ha).trans ?_
    rw [htypes]
    exact (Draft.reports_types_perm ha').symm
  · refine (Draft.reports_services_perm ha).trans ?_
    rw [hservices]
    exact (Draft.reports_services_perm ha').symm

end Rearranged

/-! ## Compilations -/

theorem compile_eq (ds : List Declaration) (base : String) : compile ds base =
    match analyze ds with
    | .error e => .error (.analysis e)
    | .ok a =>
      match Schema.generate {} a.model base with
      | .error e => .error (.output (.schema e))
      | .ok g => .ok ⟨a.model, g.xml, a.diagnostics ++ g.diagnostics⟩ := by
  rw [compile]
  rcases analyze ds with e | a
  · rfl
  · simp only [bind, Except.bind, Except.mapError]
    rcases Schema.generate {} a.model base with e | g <;> rfl

theorem compile_eq_ok {ds : List Declaration} {base : String} {c : Compilation} :
    compile ds base = .ok c ↔ ∃ a g, analyze ds = .ok a ∧ Schema.generate {} a.model base = .ok g ∧
      c = ⟨a.model, g.xml, a.diagnostics ++ g.diagnostics⟩ := by
  rw [compile_eq]
  constructor
  · intro h
    rcases ha : analyze ds with e | a <;> rw [ha] at h
    · cases h
    rcases hg : Schema.generate {} a.model base with e | g <;> simp only [hg] at h
    · cases h
    exact ⟨a, g, rfl, hg, (Except.ok.inj h).symm⟩
  · rintro ⟨a, g, ha, hg, rfl⟩
    simp only [ha, hg]

/-- `Unambiguous` declarations are compiled to the same schema in whatever order they are given, and
also if members or constants with names of their own change their places. What is reported on the
schema is the same, and what is reported altogether is the same up to order. -/
theorem schema_independent_of_order {ds ds' : List Declaration} (h : Rearranged ds ds')
    (hu : Unambiguous ds) (base : String) :
    (compile ds base).isOk = (compile ds' base).isOk ∧
    ∀ c c', compile ds base = .ok c → compile ds' base = .ok c' →
      c.schema = c'.schema ∧
      (∃ g g', Schema.generate {} c.model base = .ok g ∧ Schema.generate {} c'.model base = .ok g' ∧
        g.diagnostics = g'.diagnostics) ∧
      c.diagnostics.Perm c'.diagnostics := by
  have hok := h.corresponds.analyze_isOk (fun _ _ => id) hu (h.unambiguous hu)
  rw [compile_eq, compile_eq]
  rcases hds : analyze ds with e | a <;> rcases hds' : analyze ds' with e' | a' <;>
    rw [hds, hds'] at hok
  · exact ⟨rfl, fun c c' hc => by cases hc⟩
  · cases hok
  · cases hok
  obtain ⟨ha, hcycle, rfl⟩ := analyze_eq_ok.mp hds
  obtain ⟨-, -, rfl⟩ := analyze_eq_ok.mp hds'
  have htwins := h.corresponds.finished_twins (fun _ _ => id) hu (h.unambiguous hu) ha
  have hgenerate := Schema.generate_eq htwins {} hcycle base
  simp only [← hgenerate]
  rcases hg : Schema.generate {} (finishedModel ds) base with e | g
  · exact ⟨rfl, fun c c' hc => by cases hc⟩
  refine ⟨rfl, fun c c' hc hc' => ?_⟩
  obtain rfl := Except.ok.inj hc
  obtain rfl := Except.ok.inj hc'
  exact ⟨rfl, ⟨g, g, hg, hgenerate.symm.trans hg, rfl⟩, (h.diagnostics_perm hu ha).append_right _⟩

/-- Two anchors, an enumeration, and a struct that refers to both and to what nothing declares. -/
def catalogDeclarations : List Declaration := [
  .type { name := "Api", space := "types", body := .struct .none [] },
  .type { name := "Identified", space := "types", body := .struct .none [
    { name := "id", type := { name := "String" } }] },
  .type { name := "DiskFormat", space := "types", body := .enum [
    { name := "RAW" }, { name := "COW" }] },
  .type { name := "Disk", space := "types", body := .struct (.class "Identified") [
    { name := "format", type := { name := "DiskFormat" } },
    { name := "vms", type := { name := "Vm", isArray := true }, kind := .link },
    { name := "quota", type := { name := "Quota" }, kind := .link },
    { name := "copies", type := { name := "Disk", isArray := true }, kind := .link }] }]

/-- `catalogDeclarations` backwards, and the constants and members backwards, too. -/
def catalogBackwards : List Declaration := [
  .type { name := "Disk", space := "types", body := .struct (.class "Identified") [
    { name := "copies", type := { name := "Disk", isArray := true }, kind := .link },
    { name := "quota", type := { name := "Quota" }, kind := .link },
    { name := "vms", type := { name := "Vm", isArray := true }, kind := .link },
    { name := "format", type := { name := "DiskFormat" } }] },
  .type { name := "DiskFormat", space := "types", body := .enum [
    { name := "COW" }, { name := "RAW" }] },
  .type { name := "Identified", space := "types", body := .struct .none [
    { name := "id", type := { name := "String" } }] },
  .type { name := "Api", space := "types", body := .struct .none [] }]

theorem schema_independent_of_order_catalog : ∃ c c',
    compile catalogDeclarations "<schema/>" = .ok c ∧
      compile catalogBackwards "<schema/>" = .ok c' ∧ c.diagnostics ≠ c'.diagnostics ∧
      c.schema = c'.schema ∧ c.diagnostics.Perm c'.diagnostics := by
  have hdiagnostics : ((compile catalogDeclarations "<schema/>").toOption.bind fun c =>
      (compile catalogBackwards "<schema/>").toOption.map fun c' =>
        decide (c.diagnostics ≠ c'.diagnostics)) = some true := by
    decide +kernel
  obtain ⟨c, hc, h⟩ := Option.bind_eq_some_iff.mp hdiagnostics
  obtain ⟨c', hc', hne⟩ := Option.map_eq_some_iff.mp h
  have hrearranged : Rearranged catalogDeclarations catalogBackwards := by
    refine ⟨catalogDeclarations.reverse, (List.reverse_perm _).symm, ?_⟩
    refine .cons (.type ⟨rfl, rfl, rfl, .struct (.inr ⟨by decide, by decide +kernel⟩)⟩)
      (.cons (.type ⟨rfl, rfl, rfl, .enum (.inr ⟨by decide, by decide +kernel⟩)⟩)
        (.cons (.type (.refl _)) (.cons (.type (.refl _)) .nil)))
  have hu : Unambiguous catalogDeclarations :=
    ⟨by decide +kernel, by decide +kernel, by decide +kernel⟩
  have hok := eq_ok_of_toOption hc
  have hok' := eq_ok_of_toOption hc'
  obtain ⟨hschema, -, hperm⟩ :=
    (schema_independent_of_order hrearranged hu "<schema/>").2 c c' hok hok'
  exact ⟨c, c', hok, hok', of_decide_eq_true hne, hschema, hperm⟩

end ApiModel
