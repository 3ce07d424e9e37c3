import ApiModel.Proofs.Inheritance
import ApiModel.Schema.Generate

/-!
# The layout of twin models

A schema is laid out by names: entities, members and values are listed in the
order of their names, and references are written as the names of what they lead
to. So the numbers of entities don't show, and where members have names of their
own neither does the order they were declared in.
-/

namespace ApiModel

/-! ## Sorting by name -/

section Sorting

variable {α β : Type} {key : α → Name} {key' : β → Name}

theorem sortByName_eq_insertionSort (as : List α) :
    sortByName key as = as.insertionSort fun a b => (compare (key a) (key b)).isLE := by
  have hinsert : ∀ a (bs : List α), insertByName key a bs =
      bs.orderedInsert (fun a b => (compare (key a) (key b)).isLE) a := by
    intro a bs
    induction bs with
    | nil => rfl
    | cons b bs ih => rw [insertByName, List.orderedInsert_cons, ih]
  induction as with
  | nil => rfl
  | cons a as ih => rw [sortByName, List.foldr_cons, ← sortByName, ih, hinsert]; rfl

theorem perm_sortByName (as : List α) : (sortByName key as).Perm as := by
  rw [sortByName_eq_insertionSort]
  exact List.perm_insertionSort _ as

theorem pairwise_sortByName (as : List α) :
    (sortByName key as).Pairwise fun a b => (compare (key a) (key b)).isLE := by
  let le : α → α → Prop := fun a b => (compare (key a) (key b)).isLE
  have htotal : Std.Total le := ⟨fun a b => by
    simp only [le, Std.OrientedCmp.eq_swap (a := key b) (b := key a)]
    cases compare (key a) (key b) <;> simp⟩
  have htrans : IsTrans α le := ⟨fun a b c => Std.TransCmp.isLE_trans⟩
  rw [sortByName_eq_insertionSort]
  exact List.pairwise_insertionSort le as

/-- The order of elements that have names of their own is lost by `sortByName`. -/
theorem sortByName_eq_of_perm {as bs : List α} (hp : as.Perm bs) (hn : (as.map key).Nodup) :
    sortByName key as = sortByName key bs := by
  have hperm : (sortByName key as).Perm (sortByName key bs) :=
    (perm_sortByName as).trans (hp.trans (perm_sortByName bs).symm)
  refine List.Perm.eq_of_pairwise (fun a b ha hb hab hba => ?_) (pairwise_sortByName as)
    (pairwise_sortByName bs) hperm
  refine List.inj_on_of_nodup_map hn ((perm_sortByName as).mem_iff.mp ha) (hp.mem_iff.mpr ?_)
    (Std.compare_eq_iff_eq.mp (Std.OrientedCmp.isLE_antisymm hab hba))
  exact (perm_sortByName bs).mem_iff.mp hb

/-- Lists that are related in order by `S` are so after `sortByName`. -/
theorem forall₂_sortByName {S : α → β → Prop} {as : List α} {bs : List β}
    (h : List.Forall₂ S as bs) (hS : ∀ a b, S a b → key a = key' b) :
    List.Forall₂ S (sortByName key as) (sortByName key' bs) := by
  have hinsert : ∀ {a b as bs}, S a b → List.Forall₂ S as bs →
      List.Forall₂ S (insertByName key a as) (insertByName key' b bs) := by
    intro a b as bs hab h
    induction h with
    | nil => exact .cons hab .nil
    | cons hcd hrest ih =>
      rw [insertByName, insertByName, hS _ _ hab, hS _ _ hcd]
      split
      · exact .cons hab (.cons hcd hrest)
      · exact .cons hcd ih
  induction h with
  | nil => exact .nil
  | cons hab _ ih => exact hinsert hab ih

end Sorting

/-! ## Members and values of twins -/

theorem Shuffled.sortByName_eq {α : Type} {key : α → Name} {as bs : List α}
    (h : Shuffled key as bs) : sortByName key as = sortByName key bs := by
  rcases h with rfl | ⟨hp, hn⟩
  · rfl
  · exact sortByName_eq_of_perm hp hn

/-- Attributes come before links, whatever the order of all `members`. -/
theorem Shuffled.byKind {members members' : List MemberDecl} {name : MemberDecl → Name}
    (h : Shuffled name members members') :
    Shuffled name (members.filter (·.kind = .attribute) ++ members.filter (·.kind = .link))
      (members'.filter (·.kind = .attribute) ++ members'.filter (·.kind = .link)) := by
  have hkinds : ∀ xs : List MemberDecl,
      (xs.filter (·.kind = .attribute) ++ xs.filter (·.kind = .link)).Perm xs := by
    intro xs
    have hlink : ∀ x : MemberDecl, decide (x.kind = .link) = !decide (x.kind = .attribute) := by
      intro x
      cases x.kind <;> rfl
    simpa only [hlink] using List.filter_append_perm (·.kind = .attribute) xs
  rcases h with rfl | ⟨hp, hn⟩
  · exact .inl rfl
  · exact .inr ⟨(hkinds _).trans (hp.trans (hkinds _).symm), ((hkinds _).map name).nodup_iff.mpr hn⟩

theorem Member.Matches.name {r : Reading} {owner : TypeId} {x : Member} {decl : MemberDecl}
    (h : x.Matches r owner decl) : x.name = Name.ofCase decl.name := by
  rw [Member.name, h.concept, Declare.name_concept]

namespace Model

variable {m m' : Model}

/-- The members `x` and `x'` have the same name, and types that the same reference leads to. -/
structure MemberTwins (m m' : Model) (x x' : Member) : Prop where
  name : x.name = x'.name
  type : ∃ t, m.ResolvesTarget t x.type ∧ m'.ResolvesTarget t x'.type

theorem StructTwins.name {id id' : TypeId} {s s' : StructType}
    (h : StructTwins TypeDecl.Alike m m' id s id' s') : s.name = s'.name := by
  obtain ⟨ht, -, -, hs, hs'⟩ := h
  rw [StructType.name, StructType.name, hs.concept, hs'.concept, ht.name, ht.info]

theorem StructTwins.members {id id' : TypeId} {s s' : StructType}
    (h : StructTwins TypeDecl.Alike m m' id s id' s') :
    List.Forall₂ (MemberTwins m m') (sortByName (·.name) s.members)
      (sortByName (·.name) s'.members) := by
  obtain ⟨ht, hb, hb', hs, hs'⟩ := h
  have hbody := ht.body
  rw [hb, hb'] at hbody
  cases hbody with
  | struct hsh =>
    have hmembers := forall₂_sortByName (List.rel_append hs.attributes hs.links)
      fun _ _ => Member.Matches.name
    have hmembers' := forall₂_sortByName (List.rel_append hs'.attributes hs'.links)
      fun _ _ => Member.Matches.name
    rw [← hsh.byKind.sortByName_eq] at hmembers'
    refine forall₂_join hmembers hmembers' fun x x' decl hx hx' => ?_
    exact ⟨hx.name.trans hx'.name.symm, decl.type.target, hx.type, hx'.type⟩

theorem EnumTwins.name {id id' : TypeId} {e e' : EnumType}
    (h : EnumTwins TypeDecl.Alike m m' id e id' e') : e.name = e'.name := by
  obtain ⟨ht, -, -, he, he'⟩ := h
  rw [EnumType.name, EnumType.name, he.concept, he'.concept, ht.name, ht.info]

theorem EnumTwins.values {id id' : TypeId} {e e' : EnumType}
    (h : EnumTwins TypeDecl.Alike m m' id e id' e') :
    List.Forall₂ (fun v v' => v.name = v'.name) (sortByName (·.name) e.values)
      (sortByName (·.name) e'.values) := by
  obtain ⟨ht, hb, hb', he, he'⟩ := h
  have hbody := ht.body
  rw [hb, hb'] at hbody
  cases hbody with
  | enum hsh =>
    have hname : ∀ {owner} {v : EnumValue} {decl}, v.Matches owner decl →
        v.name = Name.ofConstant decl.name := by
      intro owner v decl hv
      rw [EnumValue.name, hv.concept, Declare.name_concept]
    have hvalues := forall₂_sortByName he.values fun _ _ => hname
    have hvalues' := forall₂_sortByName he'.values fun _ _ => hname
    rw [← hsh.sortByName_eq] at hvalues'
    refine forall₂_join hvalues hvalues' fun v v' decl hv hv' => ?_
    exact (hname hv).trans (hname hv').symm

end Model

/-! ## Definitions of twins -/

namespace Schema

variable {m m' : Model}

theorem member_cases {x x' : Member} (hx : m.MemberTwins m' x x') :
    m.Paired m' x.type x'.type ∨ ∃ n e e', m.type? x.type = some (.list n e) ∧
      m'.type? x'.type = some (.list n e') ∧ m.Paired m' e e' := by
  obtain ⟨⟨n, _ | _⟩, ht, ht'⟩ := hx.type
  · exact .inl ⟨n, ht, ht'⟩
  · obtain ⟨-, e, he, hn⟩ := ht
    obtain ⟨-, e', he', hn'⟩ := ht'
    exact .inr ⟨n, e, e', he, he', n, hn, hn'⟩

variable (h : m.Twins TypeDecl.Alike m') (cfg : Config)

include h

/-! ### Members -/

theorem typeName?_eq {id id' : TypeId} (hp : m.Paired m' id id') :
    typeName? cfg m id = typeName? cfg m' id' := by
  rcases h.paired_cases hp with ht | ⟨n, hx, hx'⟩
  · cases ht with
    | primitive hx hx' => rw [typeName?, typeName?, hx, hx']
    | struct hx hx' hs => simp only [typeName?, hx, hx', hs.name]
    | enum hx hx' he => simp only [typeName?, hx, hx', he.name]
  · rw [typeName?, typeName?, hx, hx']

theorem element?_eq_none {id id' : TypeId} (hp : m.Paired m' id id') :
    (m.type? id).bind DataType.element? = none ∧ (m'.type? id').bind DataType.element? = none := by
  rcases h.paired_cases hp with ht | ⟨n, hx, hx'⟩
  · cases ht with
    | primitive hx hx' | struct hx hx' | enum hx hx' => rw [hx, hx']; exact ⟨rfl, rfl⟩
  · rw [hx, hx']
    exact ⟨rfl, rfl⟩

variable {s s' : StructType} (hs : s.name = s'.name) {x x' : Member}
  (hx : m.MemberTwins m' x x')

include hs hx

theorem memberTypeName?_eq {id id' : TypeId} (hp : m.Paired m' id id') :
    memberTypeName? cfg m s x id = memberTypeName? cfg m' s' x' id' := by
  rw [memberTypeName?, memberTypeName?, hs, hx.name, typeName?_eq h cfg hp]

theorem listParticle?_eq {e e' : TypeId} (hp : m.Paired m' e e') :
    listParticle? cfg m s x e = listParticle? cfg m' s' x' e' := by
  have hname := memberTypeName?_eq h cfg hs hx hp
  rcases h.paired_cases hp with ht | ⟨n, he, he'⟩
  · cases ht with
    | primitive he he' => simp only [listParticle?, he, he', hname, hx.name]
    | struct he he' ht => simp only [listParticle?, he, he', ht.name, hx.name]
    | enum he he' => simp only [listParticle?, he, he', hname, hx.name]
  · rw [listParticle?, listParticle?, he, he']

theorem particle?_eq : particle? cfg m s x = particle? cfg m' s' x' := by
  rw [particle?, particle?]
  rcases member_cases hx with hp | ⟨n, e, e', he, he', hp⟩
  · rw [(element?_eq_none h hp).1, (element?_eq_none h hp).2]
    simp only [memberTypeName?_eq h cfg hs hx hp, hx.name]
  · rw [he, he']
    exact listParticle?_eq h cfg hs hx hp

theorem attributeUse?_eq : attributeUse? cfg m s x = attributeUse? cfg m' s' x' := by
  rw [attributeUse?, attributeUse?, hx.name]
  rcases member_cases hx with hp | ⟨n, e, e', he, he', -⟩
  · rw [memberTypeName?_eq h cfg hs hx hp]
  · simp only [memberTypeName?, typeName?, he, he', hs, hx.name]

theorem unrenderable_eq : unrenderable m s x = unrenderable m' s' x' := by
  rw [unrenderable, unrenderable, hs, hx.name]
  rcases member_cases hx with hp | ⟨n, e, e', he, he', -⟩
  · rcases h.paired_cases hp with ht | ⟨n, hu, hu'⟩
    · cases ht with
      | primitive ht ht' => rw [ht, ht']
      | struct ht ht' hs => rw [ht, ht']; simp only [Option.getD_some, DataType.name, hs.name]; rfl
      | enum ht ht' he => rw [ht, ht']; simp only [Option.getD_some, DataType.name, he.name]; rfl
    · rw [hu, hu']
  · rw [he, he']
    rfl

/-! ### Structs -/

omit hs hx

variable {id id' : TypeId} (ht : m.StructTwins TypeDecl.Alike m' id s id' s')

include ht

omit h in
theorem elementMembers_twins : List.Forall₂ (m.MemberTwins m') (elementMembers cfg s)
    (elementMembers cfg s') :=
  forall₂_filter ht.members fun _ _ hx => by rw [hx.name]

omit h in
theorem attributeMembers_twins : List.Forall₂ (m.MemberTwins m') (attributeMembers cfg s)
    (attributeMembers cfg s') :=
  forall₂_filter ht.members fun _ _ hx => by rw [hx.name]

theorem sequence_eq : sequence cfg m s = sequence cfg m' s' :=
  filterMap_eq_of_forall₂ (elementMembers_twins cfg ht) fun _ _ hx => particle?_eq h cfg ht.name hx

theorem attributeUses_eq : attributeUses cfg m s = attributeUses cfg m' s' :=
  filterMap_eq_of_forall₂ (attributeMembers_twins cfg ht) fun _ _ hx =>
    attributeUse?_eq h cfg ht.name hx

theorem memberReports_eq : memberReports cfg m s = memberReports cfg m' s' := by
  have helements := forall₂_filter (elementMembers_twins cfg ht) fun x x' hx =>
    congrArg Option.isNone (particle?_eq h cfg ht.name hx)
  have hattributes := forall₂_filter (attributeMembers_twins cfg ht) fun x x' hx =>
    congrArg Option.isNone (attributeUse?_eq h cfg ht.name hx)
  rw [memberReports, memberReports,
    map_eq_of_forall₂ helements fun _ _ hx => unrenderable_eq h ht.name hx,
    map_eq_of_forall₂ hattributes fun _ _ hx => unrenderable_eq h ht.name hx]

/-! ### Bases -/

omit ht

/-- `anchors` and `anchors'` are what references by the same names lead to. -/
structure AnchorTwins (m m' : Model) (anchors anchors' : Anchors) : Prop where
  identified : m.Paired m' anchors.identified anchors'.identified
  api : m.Paired m' anchors.api anchors'.api

variable {anchors anchors' : Anchors} (ha : AnchorTwins m m' anchors anchors')

include ha

theorem isResource_eq (hc : m.inheritanceCycle? = none) (hp : m.Paired m' id id') :
    isResource m anchors id = isResource m' anchors' id' := by
  rw [isResource, isResource, h.isExtension hc hp ha.identified]
  simp only [h.paired_eq_iff hp ha.api]

/-- The same `BaseUse`, as far as names tell. -/
inductive BaseTwins : BaseUse → BaseUse → Prop
  | implied : BaseTwins .implied .implied
  | struct {s s' : StructType} (h : s.name = s'.name) : BaseTwins (.struct s) (.struct s')
  | unusable {t t' : DataType} (h : t.name = t'.name) : BaseTwins (.unusable t) (.unusable t')

include ht

theorem baseUse_twins : BaseTwins (baseUse m anchors s) (baseUse m' anchors' s') := by
  have hbase := ht.base
  rw [baseUse, baseUse]
  generalize s.base = b, s'.base = b' at hbase
  cases hbase with
  | none => exact .implied
  | @some b b' hp =>
    by_cases hid : b = anchors.identified
    · simp only [hid, (h.paired_eq_iff hp ha.identified).mp hid, if_true]
      exact .implied
    · simp only [hid, mt (h.paired_eq_iff hp ha.identified).mpr hid, if_false]
      rcases h.paired_cases hp with ht | ⟨n, hx, hx'⟩
      · cases ht with
        | primitive hx hx' => rw [hx, hx']; exact .unusable rfl
        | struct hx hx' hs => rw [hx, hx']; exact .struct hs.name
        | enum hx hx' he => rw [hx, hx']; exact .unusable he.name
      · rw [hx, hx']
        exact .unusable rfl

theorem extensionBase?_eq (hc : m.inheritanceCycle? = none) (hp : m.Paired m' id id') :
    extensionBase? cfg m anchors id s = extensionBase? cfg m' anchors' id' s' := by
  have hbase := baseUse_twins h ht ha
  rw [extensionBase?, extensionBase?, isResource_eq h ha hc hp]
  generalize baseUse m anchors s = b, baseUse m' anchors' s' = b' at hbase
  cases hbase with
  | implied | unusable => rfl
  | struct hs => simp only [hs]

theorem baseReports_eq : baseReports m anchors s = baseReports m' anchors' s' := by
  have hbase := baseUse_twins h ht ha
  rw [baseReports, baseReports, ht.name]
  generalize baseUse m anchors s = b, baseUse m' anchors' s' = b' at hbase
  cases hbase with
  | implied | struct => rfl
  | unusable ht => simp only [ht]

theorem structReports_eq : structReports cfg m anchors s = structReports cfg m' anchors' s' := by
  rw [structReports, structReports, baseReports_eq h ht ha, memberReports_eq h cfg ht]

theorem structDefinitions_eq (hc : m.inheritanceCycle? = none) (hp : m.Paired m' id id') :
    structDefinitions cfg m anchors id s = structDefinitions cfg m' anchors' id' s' := by
  simp only [structDefinitions, structType, collectionType, ht.name,
    extensionBase?_eq h cfg ht ha hc hp, isResource_eq h ha hc hp, sequence_eq h cfg ht,
    attributeUses_eq h cfg ht]

/-! ### Everything -/

omit ht

theorem definedStructs_twins : List.Forall₂ (fun p p' => m.Paired m' p.1 p'.1 ∧
    m.StructTwins TypeDecl.Alike m' p.1 p.2 p'.1 p'.2) (definedStructs m anchors)
    (definedStructs m' anchors') :=
  forall₂_filter h.structs fun p p' hp => by
    simp only [ne_eq, h.paired_eq_iff hp.1 ha.identified]

omit ha in
theorem enums_twins : List.Forall₂ (fun e e' => e.name = e'.name ∧
    enumType cfg e = enumType cfg e') (m.enums.map (·.2)) (m'.enums.map (·.2)) := by
  rw [List.forall₂_map_left_iff, List.forall₂_map_right_iff]
  refine h.enums.imp fun p p' he => ⟨he.name, ?_⟩
  rw [enumType, enumType, he.name, map_eq_of_forall₂ he.values fun v v' hv => ?_]
  rw [facet, facet, EnumValue.lowerToken, EnumValue.lowerToken, EnumValue.upperToken,
    EnumValue.upperToken, hv]

theorem definitions_eq (hc : m.inheritanceCycle? = none) :
    definitions cfg m anchors = definitions cfg m' anchors' := by
  have henums := enums_twins h cfg
  have hstructs := flatMap_eq_of_forall₂ (definedStructs_twins h ha) fun _ _ hp =>
    structDefinitions_eq h cfg hp.2 ha hc hp.1
  have hgroup : enumGroup cfg (m.enums.map (·.2)) = enumGroup cfg (m'.enums.map (·.2)) := by
    rw [enumGroup, enumGroup, map_eq_of_forall₂ henums fun e e' he => by rw [he.1]]
  have hvalues := map_eq_of_forall₂ (f := enumValuesType cfg) (g := enumValuesType cfg) henums
    fun e e' he => by rw [enumValuesType, enumValuesType, he.1]
  have htypes := map_eq_of_forall₂ henums fun _ _ he => he.2
  simp only [definitions, hgroup, hvalues, htypes, hstructs]

theorem reports_eq : reports cfg m anchors = reports cfg m' anchors' :=
  flatMap_eq_of_forall₂ (definedStructs_twins h ha) fun _ _ hp => structReports_eq h cfg hp.2 ha

omit ha

theorem findAnchor_twins (role : AnchorRole) (n : Name) :
    (∃ e, findAnchor m role n = .error e ∧ findAnchor m' role n = .error e) ∨
      ∃ id id', findAnchor m role n = .ok id ∧ findAnchor m' role n = .ok id' ∧
        m.Paired m' id id' := by
  have ht := h.types n
  rw [findAnchor, findAnchor]
  rcases hid : m.findType? n with _ | id <;> rcases hid' : m'.findType? n with _ | id' <;>
    rw [hid, hid'] at ht
  · exact .inl ⟨_, rfl, rfl⟩
  · cases ht
  · cases ht
  · exact .inr ⟨id, id', rfl, rfl, Model.Twins.paired_of_registered hid hid'⟩

/-- `Twins` have the same schema and the same reports on it. -/
theorem generate_eq (hc : m.inheritanceCycle? = none) (base : String) :
    generate cfg m base = generate cfg m' base := by
  simp only [generate, generateBy, findAnchors, bind, Except.bind, pure, Except.pure]
  rcases findAnchor_twins h .identified cfg.identified with
    ⟨e, he, he'⟩ | ⟨identified, identified', hi, hi', hpi⟩
  · simp only [he, he']
  rcases findAnchor_twins h .api cfg.api with ⟨e, he, he'⟩ | ⟨api, api', hapi, hapi', hpa⟩
  · simp only [hi, hi', he, he']
  have ha : AnchorTwins m m' ⟨identified, api⟩ ⟨identified', api'⟩ := ⟨hpi, hpa⟩
  simp only [hi, hi', hapi, hapi', definitionChars, definitions_eq h cfg ha hc,
    reports_eq h cfg ha]

end Schema

end ApiModel
