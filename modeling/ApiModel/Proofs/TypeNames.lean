import ApiModel.Proofs.SchemaNames

/-!
# Names of types in ASCII

The name of a type in a schema is that of its declaration with the words run
together. Where a word begins is then told by a capital letter alone. In ASCII that
is enough: a name is split before capital letters only, so every word but
the first begins with a letter, and inside of words there are no capitals left.
Hence different names are spelled differently.

A type is named where it is defined and where a member refers to it. Both places
have the same name for it, so types declared under different names are never taken
for each other.
-/

namespace ApiModel

def Text.isAscii (text : String) : Bool :=
  text.toList.all (·.toNat < 128)

/-! ## Spelling -/

namespace Name

theorem Plain.capitalized_ne_empty {n : Name} (h : n.Plain) : SchemaNaming.capitalized n ≠ "" := by
  intro hempty
  have hwords := h.separable.eq_nil (by rw [← h.toList_capitalized, hempty]; rfl)
  exact h.nonempty (List.map_eq_nil_iff.mp hwords)

theorem ascii_stripMarkers {text : String} (h : Text.isAscii text) :
    ∀ c ∈ stripMarkers text.toList, c.toNat < 128 := fun c hc =>
  of_decide_eq_true (List.all_eq_true.mp h c ((stripMarkers_sublist text.toList).subset hc))

/-- What `ofCase` reads from ASCII is `Plain`, if it is anything. -/
theorem plain_or_empty_of_ascii {text : String} (h : Text.isAscii text) :
    (ofCase text).Plain ∨ ofCase text = ⟨[]⟩ := by
  rcases hn : (ofCase text).isEmpty with _ | _
  · exact .inl (plain_ofCase_ascii (ascii_stripMarkers h) hn)
  · exact .inr (congrArg mk (List.isEmpty_iff.mp hn))

/-- Different names that `ofCase` reads from ASCII are spelled differently. -/
theorem capitalized_ofCase_inj {a b : String} (ha : Text.isAscii a) (hb : Text.isAscii b)
    (h : SchemaNaming.capitalized (ofCase a) = SchemaNaming.capitalized (ofCase b)) :
    ofCase a = ofCase b := by
  rcases plain_or_empty_of_ascii ha with hplain | hempty <;>
    rcases plain_or_empty_of_ascii hb with hplain' | hempty'
  · exact hplain.capitalized_inj hplain' h
  · rw [hempty'] at h
    exact absurd h hplain.capitalized_ne_empty
  · rw [hempty] at h
    exact absurd h.symm hplain'.capitalized_ne_empty
  · rw [hempty, hempty']

/-- By `builtinType`, a primitive is spelled with a small letter in front. -/
theorem Plain.capitalized_ne_builtinType {n : Name} (h : n.Plain) (k : PrimitiveKind) :
    SchemaNaming.capitalized n ≠ SchemaNaming.builtinType k := by
  intro heq
  have hbuiltin : (SchemaNaming.builtinType k).toList.head? = some 'x' := by cases k <;> decide
  obtain ⟨w, ws, hw⟩ := List.exists_cons_of_ne_nil h.nonempty
  obtain ⟨c, cs, hc⟩ := List.exists_cons_of_ne_nil (h.word w (by simp [hw])).1
  have hcapital := h.capital w (by simp [hw]) c (by simp [hc])
  simp only [Text.hasCapital, Bool.and_eq_true, decide_eq_true_eq] at hcapital
  rw [← heq, h.toList_capitalized, hw, List.map_cons, List.flatMap_cons, hc] at hbuiltin
  have hx : Text.capital c = 'x' := Option.some.inj hbuiltin
  have hlower : Text.lowerChar 'x' = ['x'] := by decide
  rw [hx, hlower] at hcapital
  obtain rfl := (List.singleton_inj.mp hcapital.2).symm
  exact absurd hx (by decide)

end Name

namespace SchemaNaming

theorem standard_type : standard.type = capitalized := rfl

theorem standard_primitive : standard.primitive = builtinType := rfl

theorem builtinType_injective : Function.Injective builtinType := by
  intro a b h
  cases a <;> cases b <;> simp_all [builtinType]

end SchemaNaming

namespace Schema

/-! ## Names of a type -/

section Named

variable {cfg : Config} {m : Model} {anchors : Anchors} {id : TypeId} {text : String}

/-- The `text` is a name that the schema has for the type `id` of the model. -/
inductive NamesType (cfg : Config) (m : Model) (anchors : Anchors) (id : TypeId) (text : String) :
    Prop where
  /-- A definition `d` of the type has the name. -/
  | defined (o : Origin) (own : o = .struct id ∨ o = .enum id) (d : Definition)
      (made : d ∈ definitionsFrom cfg m anchors o) (name : d.typeName? = some text)
  /-- Members refer to the type by the name, see `typeName?`. -/
  | referred (name : typeName? cfg m id = some text)

theorem mem_definitionsFrom_struct {d : Definition}
    (h : d ∈ definitionsFrom cfg m anchors (.struct id)) :
    ∃ s, m.type? id = some (.struct s) ∧ d ∈ structType cfg m anchors id s := by
  simp only [definitionsFrom, sourced, madeFor_append, madeFor_flatMap, madeFor_tagged,
    reduceCtorEq, if_false, flatMap_eq_nil, List.nil_append, List.append_nil,
    Origin.struct.injEq] at h
  obtain ⟨⟨id', s⟩, hs, hd⟩ := List.mem_flatMap.mp h
  split at hd
  · rename_i hid
    obtain rfl := hid
    exact ⟨s, (Model.mem_structs.mp (mem_definedStructs.mp hs).1).2, hd⟩
  · cases hd

theorem mem_definitionsFrom_enum {d : Definition}
    (h : d ∈ definitionsFrom cfg m anchors (.enum id)) :
    ∃ e, m.type? id = some (.enum e) ∧ d = enumType cfg e := by
  simp only [definitionsFrom, sourced, madeFor_append, madeFor_flatMap, madeFor_tagged,
    reduceCtorEq, if_false, flatMap_eq_nil, List.nil_append, List.append_nil,
    Origin.enum.injEq] at h
  obtain ⟨⟨id', e⟩, he, hd⟩ := List.mem_flatMap.mp h
  split at hd
  · rename_i hid
    obtain rfl := hid
    exact ⟨e, (Model.mem_enums.mp he).2, List.mem_singleton.mp hd⟩
  · cases hd

/-- A type is defined under the name that members refer to it by: `NamesType` is `typeName?`. -/
theorem namesType_iff : NamesType cfg m anchors id text ↔ typeName? cfg m id = some text := by
  refine ⟨fun h => ?_, .referred⟩
  rcases h with ⟨o, rfl | rfl, d, made, name⟩ | name
  · obtain ⟨s, hs, hd⟩ := mem_definitionsFrom_struct made
    simp only [structType, List.mem_cons, List.not_mem_nil, or_false] at hd
    rw [typeName?, hs]
    rcases hd with rfl | rfl
    · cases name
    · exact name
  · obtain ⟨e, he, rfl⟩ := mem_definitionsFrom_enum made
    rw [typeName?, he]
    exact name
  · exact name

/-- A type registered as `n` has the name that is spelled from `n`, unless it is a primitive. -/
theorem typeName?_of_findType? (cfg : Config) (hi : m.Indexed) {n : Name}
    (h : m.findType? n = some id) :
    typeName? cfg m id = some (cfg.naming.type n) ∨
      ∃ k : PrimitiveKind, n = k.name ∧ typeName? cfg m id = some (cfg.naming.primitive k) := by
  obtain ⟨t, ht, hname⟩ := hi.type h
  unfold typeName?
  rw [ht]
  cases t with
  | primitive k => exact .inr ⟨k, (Except.ok.inj hname).symm, rfl⟩
  | struct s => exact .inl (by rw [← Except.ok.inj hname]; rfl)
  | enum e => exact .inl (by rw [← Except.ok.inj hname]; rfl)
  | list => cases hname
  | undefined => cases hname

end Named

/-- Types that are registered under different names `a` and `b` in ASCII have different names. -/
theorem typeName?_ne {cfg : Config} {m : Model} (hcfg : cfg.naming = .standard) (hi : m.Indexed)
    {a b : String} (ha : Text.isAscii a) (hb : Text.isAscii b) (hne : Name.ofCase a ≠ Name.ofCase b)
    {id id' : TypeId} (hid : m.findType? (.ofCase a) = some id)
    (hid' : m.findType? (.ofCase b) = some id') :
    ∃ text text', typeName? cfg m id = some text ∧ typeName? cfg m id' = some text' ∧
      text ≠ text' := by
  have hplain : ∀ {text : String}, Text.isAscii text → ∀ k : PrimitiveKind,
      SchemaNaming.capitalized (.ofCase text) ≠ SchemaNaming.builtinType k := by
    intro text htext k
    rcases Name.plain_or_empty_of_ascii htext with h | h
    · exact h.capitalized_ne_builtinType k
    · rw [h]
      cases k <;> decide
  rcases typeName?_of_findType? cfg hi hid with h | ⟨k, hk, h⟩ <;>
    rcases typeName?_of_findType? cfg hi hid' with h' | ⟨k', hk', h'⟩ <;>
    simp only [hcfg, SchemaNaming.standard_type, SchemaNaming.standard_primitive] at h h' <;>
    refine ⟨_, _, h, h', fun heq => ?_⟩
  · exact hne (Name.capitalized_ofCase_inj ha hb heq)
  · exact hplain ha k' heq
  · exact hplain hb k heq.symm
  · rw [hk, hk'] at hne
    exact hne (congrArg _ (SchemaNaming.builtinType_injective heq))

/-- Names that `ofCase` reads from ASCII are told by the types that are spelled from them. So types
declared under different names have one name each in the schema, and these differ. -/
theorem type_names_separate :
    (∀ a b : String, Text.isAscii a → Text.isAscii b →
      SchemaNaming.standard.type (.ofCase a) = SchemaNaming.standard.type (.ofCase b) →
        Name.ofCase a = Name.ofCase b) ∧
    ∀ (ds : List Declaration) (result : Analysis), analyze ds = .ok result →
      ∀ (cfg : Config) (anchors : Anchors), cfg.naming = .standard →
      ∀ t t' : TypeDecl, .type t ∈ ds → .type t' ∈ ds → Text.isAscii t.name → Text.isAscii t'.name →
        Name.ofCase t.name ≠ Name.ofCase t'.name →
        ∃ id id' text text', result.model.findType? (.ofCase t.name) = some id ∧
          result.model.findType? (.ofCase t'.name) = some id' ∧
          (∀ x, NamesType cfg result.model anchors id x ↔ x = text) ∧
          (∀ x, NamesType cfg result.model anchors id' x ↔ x = text') ∧ text ≠ text' := by
  rw [SchemaNaming.standard_type]
  refine ⟨fun a b => Name.capitalized_ofCase_inj, ?_⟩
  intro ds result hresult cfg anchors hcfg t t' ht ht' hascii hascii' hne
  obtain ⟨haccepts, -, rfl⟩ := analyze_eq_ok.mp hresult
  have hp := Draft.portrays_finishedModel haccepts
  obtain ⟨id, hid⟩ := Option.isSome_iff_exists.mp (hp.typeNames ht rfl)
  obtain ⟨id', hid'⟩ := Option.isSome_iff_exists.mp (hp.typeNames ht' rfl)
  obtain ⟨text, text', htext, htext', hdiffer⟩ :=
    typeName?_ne hcfg hp.indexed hascii hascii' hne hid hid'
  refine ⟨id, id', text, text', hid, hid', fun x => ?_, fun x => ?_, hdiffer⟩
  · rw [namesType_iff, htext, Option.some_inj, eq_comm]
  · rw [namesType_iff, htext', Option.some_inj, eq_comm]

/-- A struct and an enumeration whose names have the same letters, but not the same words. -/
def attachments : List Declaration := [
  .type { name := "_DiskAttachment", space := "types", body := .struct .none [] },
  .type { name := "diskattachment", space := "types", body := .enum [{ name := "HOT" }] }]

theorem type_names_separate_attachments : ∃ result, analyze attachments = .ok result ∧
    ∀ anchors, ∃ id id' text text',
      result.model.findType? (.ofCase "_DiskAttachment") = some id ∧
      result.model.findType? (.ofCase "diskattachment") = some id' ∧
      NamesType {} result.model anchors id text ∧ NamesType {} result.model anchors id' text' ∧
      text ≠ text' := by
  have hsome : (analyze attachments).toOption.isSome = true := by decide +kernel
  obtain ⟨result, hresult⟩ := Option.isSome_iff_exists.mp hsome
  have hanalyze := eq_ok_of_toOption hresult
  refine ⟨result, hanalyze, fun anchors => ?_⟩
  obtain ⟨-, hseparate⟩ := type_names_separate
  obtain ⟨id, id', text, text', hid, hid', htext, htext', hne⟩ :=
    hseparate attachments result hanalyze {} anchors rfl _ _ List.mem_cons_self
      (List.mem_cons_of_mem _ List.mem_cons_self) (by decide) (by decide) (by decide)
  exact ⟨id, id', text, text', hid, hid', (htext text).mpr rfl, (htext' text').mpr rfl, hne⟩

end Schema

end ApiModel
