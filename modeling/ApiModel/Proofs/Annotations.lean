import ApiModel.Declaration
import ApiModel.Proofs.Lookup
import Mathlib.Data.List.Basic
import Mathlib.Data.List.Induction
import Mathlib.Data.List.TakeWhile

/-!
# Annotations and tags

The annotations of a concept have two sources. An annotation that is written out
replaces what an earlier one of its name said, so only the last one counts; within
it, parameters of one name are put together. Tags come after all annotations,
and each adds its value to the parameter `value` of the annotation of its name.

Names are compared in canonical form throughout: an annotation, a parameter or a
tag counts for a name whatever way the name is spelled.
-/

namespace ApiModel

/-! ## Values -/

namespace Text

theorem trim_eq_empty_iff {text : String} : trim text = "" ↔ ∀ c ∈ text.toList, isBlank c := by
  unfold trim
  rw [String.ofList_eq_empty_iff, List.reverse_eq_nil_iff, List.dropWhile_eq_nil_iff]
  constructor
  · intro h c hc
    rw [← List.takeWhile_append_dropWhile (p := isBlank) (l := text.toList)] at hc
    rcases List.mem_append.mp hc with hc | hc
    · exact List.mem_takeWhile_imp hc
    · exact h c (List.mem_reverse.mpr hc)
  · intro h c hc
    exact h c ((List.dropWhile_suffix _).subset (List.mem_reverse.mp hc))

end Text

/-- The text `inside` in double quotes. -/
def quoted (inside : String) : String :=
  "\"" ++ inside ++ "\""

theorem unquote_quoted (inside : String) : unquote (quoted inside) = inside := by
  have hchars : (quoted inside).toList = '"' :: (inside.toList ++ ['"']) := by simp [quoted]
  unfold unquote
  rw [hchars]
  simp

theorem unquote_eq_self {text : String} (h : ∀ inside, text ≠ quoted inside) :
    unquote text = text := by
  unfold unquote
  split
  · rfl
  · rename_i c cs htext
    split
    · rename_i hquotes
      simp only [Bool.and_eq_true, decide_eq_true_eq] at hquotes
      obtain ⟨rfl, hlast⟩ := hquotes
      obtain ⟨inside, rfl⟩ := List.getLast?_eq_some_iff.mp hlast
      refine absurd (String.toList_inj.mp ?_) (h (String.ofList inside))
      rw [htext]
      simp [quoted]
    · rfl

/-! ## Parameters of an annotation -/

namespace Annotation

theorem parameter?_addValues (a : Annotation) (n p : Name) (values : List String) :
    (a.addValues n values).parameter? p =
      if n = p then some ((a.parameter? p).getD [] ++ values) else a.parameter? p := by
  rw [parameter?, addValues, NameMap.getElem?_insert]
  by_cases h : n = p
  · rw [if_pos h, if_pos h, h]
  · rw [if_neg h, if_neg h]
    rfl

theorem parameter?_empty (p : Name) : ({} : Annotation).parameter? p = none :=
  Std.TreeMap.getElem?_emptyc

end Annotation

/-- The parameters that have the name `p`. -/
def parametersNamed (p : Name) (parameters : List (String × List String)) :
    List (String × List String) :=
  parameters.filter (Name.ofCase ·.1 = p)

/-- The values of `parametersNamed`, in order and without quotes; none if there is no such
parameter. -/
def valuesNamed? (p : Name) (parameters : List (String × List String)) : Option (List String) :=
  match parametersNamed p parameters with
  | [] => none
  | x :: xs => some ((x :: xs).flatMap (·.2.map unquote))

theorem valuesNamed?_concat (p : Name) (parameters : List (String × List String))
    (x : String × List String) :
    valuesNamed? p (parameters ++ [x]) =
      if Name.ofCase x.1 = p then
        some ((valuesNamed? p parameters).getD [] ++ x.2.map unquote)
      else valuesNamed? p parameters := by
  unfold valuesNamed? parametersNamed
  rw [List.filter_append, List.filter_singleton]
  by_cases h : Name.ofCase x.1 = p
  · rw [if_pos h, decide_eq_true h]
    cases parameters.filter (Name.ofCase ·.1 = p) with
    | nil => simp
    | cons y ys => simp
  · rw [if_neg h, decide_eq_false h]
    simp

/-- Parameters of one name `p` are put together. -/
theorem AnnotationDecl.parameter?_annotation (decl : AnnotationDecl) (p : Name) :
    decl.annotation.parameter? p = valuesNamed? p decl.parameters := by
  unfold AnnotationDecl.annotation
  induction decl.parameters using List.reverseRecOn with
  | nil => exact Annotation.parameter?_empty p
  | append_singleton parameters x ih =>
    rw [List.foldl_append, List.foldl_cons, List.foldl_nil, Annotation.parameter?_addValues, ih,
      valuesNamed?_concat]

/-! ## Tags -/

/-- The value of `tag`, unless it is blank. -/
def DocTag.value? (tag : DocTag) : Option String :=
  tag.value.filter fun value => value.toList.any (!Text.isBlank ·)

theorem DocTag.addTo_eq (tag : DocTag) (a : Annotation) :
    tag.addTo a = tag.value?.elim a fun value => a.addValues Annotation.valueParameter [value] := by
  unfold addTo value?
  rcases tag.value with _ | value
  · rfl
  · have hblank : value.toList.any (!Text.isBlank ·) = !decide (Text.trim value = "") := by
      rw [Bool.eq_iff_iff]
      simp [Text.trim_eq_empty_iff]
    simp only [Option.filter_some, hblank]
    by_cases h : Text.trim value = "" <;> simp [h]

/-- The values of `tags`, in order. -/
def tagValues (tags : List DocTag) : List String :=
  tags.filterMap DocTag.value?

/-- By `addTo`, tags add their values to one parameter. -/
theorem parameter?_foldl_addTo (tags : List DocTag) (a : Annotation) (p : Name) :
    (tags.foldl (fun a tag => tag.addTo a) a).parameter? p =
      if p = Annotation.valueParameter ∧ tagValues tags ≠ [] then
        some ((a.parameter? p).getD [] ++ tagValues tags)
      else a.parameter? p := by
  induction tags using List.reverseRecOn with
  | nil => simp [tagValues]
  | append_singleton tags tag ih =>
    rw [List.foldl_append, List.foldl_cons, List.foldl_nil, DocTag.addTo_eq]
    unfold tagValues at ih ⊢
    rw [List.filterMap_append]
    rcases hv : tag.value? with _ | value
    · simpa [hv] using ih
    · simp only [Option.elim_some, Annotation.parameter?_addValues, ih]
      by_cases hp : p = Annotation.valueParameter
      · by_cases ht : tags.filterMap DocTag.value? = []
        · simp [hv, hp, ht]
        · simp [hv, hp, ht]
      · simp [hp, Ne.symm hp]

/-! ## Annotations of a concept -/

namespace Concept

theorem annotation?_annotate (c : Concept) (n k : Name) (a : Annotation) :
    (c.annotate n a).annotation? k = if n = k then some a else c.annotation? k :=
  NameMap.getElem?_insert c.annotations n k a

theorem annotation?_updateAnnotation (c : Concept) (n k : Name) (f : Annotation → Annotation) :
    (c.updateAnnotation n f).annotation? k =
      if n = k then some (f ((c.annotation? k).getD {})) else c.annotation? k := by
  unfold updateAnnotation
  rw [annotation?_annotate]
  by_cases h : n = k
  · rw [if_pos h, if_pos h, h]
  · rw [if_neg h, if_neg h]

/-- By `annotate`, the last annotation of a name `k` replaces all before it. -/
theorem annotation?_foldl_annotate (decls : List AnnotationDecl) (c : Concept) (k : Name) :
    Concept.annotation?
      (decls.foldl (fun c decl => c.annotate (Name.ofCase decl.name) decl.annotation) c) k =
      ((decls.filter (Name.ofCase ·.name = k)).getLast?.map AnnotationDecl.annotation).or
        (c.annotation? k) := by
  induction decls using List.reverseRecOn with
  | nil => simp
  | append_singleton decls decl ih =>
    rw [List.foldl_append, List.foldl_cons, List.foldl_nil, annotation?_annotate, ih,
      List.filter_append, List.filter_singleton]
    by_cases h : Name.ofCase decl.name = k <;> simp [h]

/-- By `updateAnnotation`, tags change the annotation of their name, which the first of them creates
if need be. -/
theorem annotation?_foldl_updateAnnotation (tags : List DocTag) (c : Concept) (k : Name) :
    Concept.annotation?
      (tags.foldl (fun c tag => c.updateAnnotation (Name.ofCase tag.name) tag.addTo) c) k =
      let named := tags.filter (Name.ofCase ·.name = k)
      if named = [] then c.annotation? k
      else some (named.foldl (fun a tag => tag.addTo a) ((c.annotation? k).getD {})) := by
  induction tags using List.reverseRecOn with
  | nil => rfl
  | append_singleton tags tag ih =>
    rw [List.foldl_append, List.foldl_cons, List.foldl_nil, annotation?_updateAnnotation, ih,
      List.filter_append, List.filter_singleton]
    by_cases h : Name.ofCase tag.name = k
    · by_cases hn : tags.filter (Name.ofCase ·.name = k) = [] <;> simp [h, hn]
    · simp [h]

end Concept

namespace Meta

variable (info : Meta) (k p : Name)

/-- The last annotation that is written out under the name `k`. -/
def annotationNamed? : Option AnnotationDecl :=
  (info.annotations.filter (Name.ofCase ·.name = k)).getLast?

def tagsNamed : List DocTag :=
  info.tags.filter (Name.ofCase ·.name = k)

/-- The values that are written out for the parameter `p` of the annotation `k`. -/
def explicitValues? : Option (List String) :=
  (info.annotationNamed? k).bind fun decl => valuesNamed? p decl.parameters

theorem annotation?_concept (name : Name) :
    (info.concept name).annotation? k =
      if info.tagsNamed k = [] then (info.annotationNamed? k).map AnnotationDecl.annotation
      else some ((info.tagsNamed k).foldl (fun a tag => tag.addTo a)
        (((info.annotationNamed? k).map AnnotationDecl.annotation).getD {})) := by
  have hstart : (({ name, source := info.source.filter (· ≠ "") } : Concept).setDoc
      info.doc).annotation? k = none := Std.TreeMap.getElem?_emptyc
  rw [concept, Concept.annotation?_foldl_updateAnnotation, Concept.annotation?_foldl_annotate,
    hstart, Option.or_none]
  rfl

theorem isSome_annotation?_concept (name : Name) :
    ((info.concept name).annotation? k).isSome ↔
      (∃ decl ∈ info.annotations, Name.ofCase decl.name = k) ∨
        ∃ tag ∈ info.tags, Name.ofCase tag.name = k := by
  have htags : info.tagsNamed k = [] ↔ ¬∃ tag ∈ info.tags, Name.ofCase tag.name = k := by
    simp [tagsNamed, List.filter_eq_nil_iff]
  have hdecls : (info.annotationNamed? k).isSome ↔
      ∃ decl ∈ info.annotations, Name.ofCase decl.name = k := by
    simp [annotationNamed?]
  rw [annotation?_concept]
  by_cases h : ∃ tag ∈ info.tags, Name.ofCase tag.name = k
  · rw [if_neg (fun hnil => htags.mp hnil h)]
    simp [h]
  · rw [if_pos (htags.mpr h), Option.isSome_map, hdecls]
    simp [h]

theorem parameter?_explicit :
    (((info.annotationNamed? k).map AnnotationDecl.annotation).getD {}).parameter? p =
      info.explicitValues? k p := by
  unfold explicitValues?
  rcases info.annotationNamed? k with _ | decl
  · exact Annotation.parameter?_empty p
  · exact decl.parameter?_annotation p

/-- What is written out, and for `Annotation.valueParameter` the values of tags after that. -/
theorem parameter?_concept {name : Name} {a : Annotation}
    (h : (info.concept name).annotation? k = some a) :
    a.parameter? p =
      if p = Annotation.valueParameter ∧ tagValues (info.tagsNamed k) ≠ [] then
        some ((info.explicitValues? k p).getD [] ++ tagValues (info.tagsNamed k))
      else info.explicitValues? k p := by
  rw [annotation?_concept] at h
  split at h
  · rename_i htags
    rw [htags, if_neg (by simp [tagValues]), ← parameter?_explicit, h, Option.getD_some]
  · obtain rfl := Option.some.inj h
    rw [parameter?_foldl_addTo, parameter?_explicit]

end Meta

/-- The annotations of `Meta.concept` are those written out and those that tags are named after.
Each has the values of the last one written out under its name, without their quotes, and the values
of tags after those of the parameter `value`. -/
theorem annotations_collected (info : Meta) (name k : Name) :
    (((info.concept name).annotation? k).isSome ↔
      (∃ decl ∈ info.annotations, Name.ofCase decl.name = k) ∨
        ∃ tag ∈ info.tags, Name.ofCase tag.name = k) ∧
    (∀ a, (info.concept name).annotation? k = some a →
      (∀ p, p ≠ Annotation.valueParameter → a.parameter? p = info.explicitValues? k p) ∧
      a.values = (info.explicitValues? k Annotation.valueParameter).getD [] ++
        tagValues (info.tagsNamed k) ∧
      ((a.parameter? Annotation.valueParameter).isSome ↔
        (info.explicitValues? k Annotation.valueParameter).isSome ∨
          tagValues (info.tagsNamed k) ≠ [])) ∧
    (∀ inside, unquote (quoted inside) = inside) ∧
    ∀ text, (∀ inside, text ≠ quoted inside) → unquote text = text := by
  refine ⟨?_, fun a ha => ⟨fun p hp => ?_, ?_, ?_⟩, unquote_quoted, fun _ => unquote_eq_self⟩
  · exact info.isSome_annotation?_concept k name
  · rw [info.parameter?_concept k p ha, if_neg (fun h => hp h.1)]
  · unfold Annotation.values
    rw [info.parameter?_concept k _ ha]
    by_cases ht : tagValues (info.tagsNamed k) = [] <;> simp [ht]
  · rw [info.parameter?_concept k _ ha]
    by_cases ht : tagValues (info.tagsNamed k) = [] <;> simp [ht]

/-- One name in several spellings, as an annotation and as a tag. -/
def releaseNotes : Meta where
  annotations := [
    { name := "since", parameters := [("value", ["\"3.6\""]), ("build", ["7"])] },
    { name := "Since",
      parameters := [("value", ["\"4.0\""]), ("major", ["4"]), ("Value", ["4.1"])] }]
  tags := [
    { name := "since", value := some "  " }, { name := "status", value := some "added" },
    { name := "since_", value := some " 4.2 " }, { name := "_since" }]

theorem annotations_collected_releaseNotes :
    ∃ a, (releaseNotes.concept (.ofCase "disk")).annotation? (.ofCase "since") = some a ∧
      a.values = ["4.0", "4.1", " 4.2 "] ∧ a.parameter? (.ofCase "major") = some ["4"] ∧
      a.parameter? (.ofCase "build") = none := by
  have hfacts : (releaseNotes.explicitValues? (.ofCase "since") Annotation.valueParameter =
        some ["4.0", "4.1"] ∧
      tagValues (releaseNotes.tagsNamed (.ofCase "since")) = [" 4.2 "]) ∧
      (Name.ofCase "major" ≠ Annotation.valueParameter ∧
        releaseNotes.explicitValues? (.ofCase "since") (.ofCase "major") = some ["4"]) ∧
      Name.ofCase "build" ≠ Annotation.valueParameter ∧
        releaseNotes.explicitValues? (.ofCase "since") (.ofCase "build") = none := by
    decide +kernel
  obtain ⟨⟨hexplicit, htags⟩, ⟨hmajor, hmajorValues⟩, hbuild, hbuildValues⟩ := hfacts
  obtain ⟨hsome, hparameters, -⟩ :=
    annotations_collected releaseNotes (.ofCase "disk") (.ofCase "since")
  obtain ⟨a, ha⟩ := Option.isSome_iff_exists.mp (hsome.mpr (.inl ⟨_, List.mem_cons_self, rfl⟩))
  obtain ⟨hothers, hvalues, -⟩ := hparameters a ha
  refine ⟨a, ha, ?_, (hothers _ hmajor).trans hmajorValues, (hothers _ hbuild).trans hbuildValues⟩
  rw [hvalues, hexplicit, htags]
  rfl

end ApiModel
