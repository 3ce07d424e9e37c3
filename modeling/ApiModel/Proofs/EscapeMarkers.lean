import ApiModel.Proofs.CaseSplitting
import ApiModel.Proofs.Ensures

/-!
# Escape markers

A marker in front of an identifier or behind it isn't part of the name. It is
taken off as the name is read, so where nothing else looks at the text all four
spellings of an identifier stand for the same name. In two places something else
does, and before the markers are gone: other spellings of primitive types are
looked up as they are written, and the ending of service names is removed from
the end of the text. There a marker makes a difference, but only for the texts
that these rules are about.
-/

namespace ApiModel

/-! ## Spellings -/

/-- The `text` with a marker in `front`, at the `back`, or both. -/
def marked (front back : Bool) (text : String) : String :=
  (if front then "_" else "") ++ text ++ (if back then "_" else "")

/-- No `escapeMarker` stands at either end of `text`. -/
structure Bare (text : String) : Prop where
  head : text.toList.head? ≠ some escapeMarker
  last : text.toList.getLast? ≠ some escapeMarker

theorem toList_marked (front back : Bool) (text : String) : (marked front back text).toList =
    (if front then [escapeMarker] else []) ++ text.toList ++
      (if back then [escapeMarker] else []) := by
  cases front <;> cases back <;> simp [marked, escapeMarker]

theorem dropMarker_cons (cs : List Char) : dropMarker (escapeMarker :: cs) = cs := by
  rw [dropMarker, if_pos rfl]

/-- A marker in front of a text that doesn't start with one makes no difference to
`stripMarkers`. -/
theorem stripMarkers_cons {cs : List Char} (h : cs.head? ≠ some escapeMarker) :
    stripMarkers (escapeMarker :: cs) = stripMarkers cs := by
  rw [stripMarkers, stripMarkers, dropMarker_cons, dropMarker_eq_self h]

theorem Bare.stripMarkers_eq_self {text : String} (h : Bare text) :
    stripMarkers text.toList = text.toList :=
  ApiModel.stripMarkers_eq_self h.head h.last

theorem Bare.stripMarkers_marked {text : String} (h : Bare text) (front back : Bool) :
    stripMarkers (marked front back text).toList = text.toList := by
  obtain ⟨hhead, hlast⟩ := h
  rw [toList_marked, List.append_assoc]
  generalize text.toList = cs at hhead hlast
  cases cs with
  | nil => cases front <;> cases back <;> rfl
  | cons c cs =>
    -- Something is left of the text, so a marker at its end isn't taken for one in front.
    have hfront (rest : List Char) :
        dropMarker ((if front then [escapeMarker] else []) ++ (c :: cs ++ rest)) =
          c :: cs ++ rest := by
      cases front
      · exact dropMarker_eq_self hhead
      · exact dropMarker_cons _
    rw [stripMarkers, hfront]
    cases back
    · rw [if_neg Bool.false_ne_true, List.append_nil,
        dropMarker_eq_self (by rwa [List.head?_reverse]), List.reverse_reverse]
    · rw [if_pos rfl, List.reverse_concat, dropMarker_cons, List.reverse_reverse]

namespace Name

theorem ofCase_marked {text : String} (h : Bare text) (front back : Bool) :
    ofCase (marked front back text) = ofCase text := by
  rw [ofCase, h.stripMarkers_marked, ofCase, h.stripMarkers_eq_self]

theorem ofCase_front {text : String} (h : text.toList.head? ≠ some escapeMarker) :
    ofCase ("_" ++ text) = ofCase text := by
  have hlist : ("_" ++ text).toList = escapeMarker :: text.toList := String.toList_append
  rw [ofCase, hlist, stripMarkers_cons h, ofCase]

end Name

/-! ## Letters of a name -/

namespace Name

/-- How many letters the words of `n` have together. -/
def letters (n : Name) : Nat :=
  (n.words.map (·.toList.length)).sum

theorem letters_ofCase (text : String) : (ofCase text).letters =
    ((stripMarkers text.toList).flatMap Text.lowerChar).length := by
  have hword (seg : List Char) : (Text.lower (String.ofList seg)).toList.length =
      (seg.flatMap Text.lowerChar).length := by
    rw [Text.lower, Text.lowerChars, String.toList_ofList, String.toList_ofList,
      Text.length_lowerFrom]
  rw [letters, words_ofCase, List.map_map, Function.comp_def]
  simp only [hword]
  rw [← List.length_flatMap, ← List.flatMap_assoc, List.flatMap_id', flatten_splitCase]

theorem isEmpty_of_letters {n : Name} (h : n.letters ≠ 0) : n.isEmpty = false := by
  obtain ⟨_ | ⟨w, ws⟩⟩ := n
  · exact absurd rfl h
  · rfl

theorem isEmpty_ofCase {text : String} (h : Bare text) :
    (ofCase text).isEmpty = true ↔ text = "" := by
  rw [isEmpty_ofCase_iff, h.stripMarkers_eq_self, String.toList_eq_nil_iff]

end Name

/-! ## References to types -/

theorem mem_toList_marked {front back : Bool} (h : (front || back) = true) (text : String) :
    escapeMarker ∈ (marked front back text).toList := by
  rw [toList_marked]
  cases front
  · rw [Bool.false_or] at h
    simp [h]
  · simp

/-- All other spellings of primitive types, see `synonym?`. -/
def synonyms : List String :=
  ["Boolean", "bool", "Double", "Float", "double", "float"]

theorem synonym?_eq_none {text : String} (h : text ∉ synonyms) : synonym? text = none := by
  simp only [synonyms, List.mem_cons, not_or] at h
  simp [synonym?, h]

/-- By `referenceName`, other spellings of primitive types are looked up with the markers still
on. -/
theorem referenceName_marked {text : String} (h : Bare text) {front back : Bool}
    (hmark : (front || back) = true) :
    referenceName (marked front back text) = Name.ofCase text := by
  have hfree : ∀ s ∈ synonyms, escapeMarker ∉ s.toList := by decide
  have hnone : synonym? (marked front back text) = none :=
    synonym?_eq_none fun hmem => hfree _ hmem (mem_toList_marked hmark text)
  rw [referenceName, hnone]
  exact Name.ofCase_marked h front back

/-- Of the other spellings, `Boolean` alone is read as the type that it stands for. -/
theorem referenceName_eq_ofCase_iff (text : String) : referenceName text = Name.ofCase text ↔
    text ∉ ["bool", "Double", "Float", "double", "float"] := by
  by_cases hmem : text ∈ synonyms
  · have hcases : ∀ s ∈ synonyms,
        referenceName s = Name.ofCase s ↔ s ∉ ["bool", "Double", "Float", "double", "float"] := by
      decide +kernel
    exact hcases text hmem
  · simp only [referenceName, synonym?_eq_none hmem, true_iff]
    exact fun h => hmem (List.mem_cons_of_mem _ h)

/-! ## Names of services -/

section ServiceSuffix

variable {text rest : String}

theorem toList_append_service (rest : String) :
    (rest ++ "Service").toList = rest.toList ++ serviceSuffix := by
  rw [String.toList_append]
  rfl

theorem stripServiceSuffix_append (h : rest ≠ "") :
    stripServiceSuffix (rest ++ "Service") = rest := by
  have hrest : serviceSuffix.reverse.isPrefixOf? (rest ++ "Service").toList.reverse =
      some rest.toList.reverse := by
    rw [List.isPrefixOf?_eq_some_iff_append_eq, toList_append_service, List.reverse_append]
  rw [stripServiceSuffix, hrest]
  split
  · rename_i hnone
    cases hnone
  · rename_i hnil
    rw [Option.some.injEq, List.reverse_eq_nil_iff, String.toList_eq_nil_iff] at hnil
    exact absurd hnil h
  · rename_i hsome
    rw [← Option.some.inj hsome, List.reverse_reverse, String.ofList_toList]

theorem stripServiceSuffix_eq_self (h : ∀ rest, rest ≠ "" → text ≠ rest ++ "Service") :
    stripServiceSuffix text = text := by
  rw [stripServiceSuffix]
  split
  · rfl
  · rfl
  · rename_i rest hne hrest
    rw [List.isPrefixOf?_eq_some_iff_append_eq] at hrest
    refine absurd ?_ (h (String.ofList rest.reverse) ?_)
    · rw [← String.toList_inj, toList_append_service, String.toList_ofList,
        ← List.reverse_reverse text.toList, ← hrest, List.reverse_append, List.reverse_reverse]
    · rw [Ne, String.ofList_eq_empty_iff, List.reverse_eq_nil_iff]
      exact hne

/-- A marker in front of the text is as good as a letter, where `stripServiceSuffix` is
concerned. -/
theorem stripServiceSuffix_marked_front (hne : text ≠ "Service")
    (h : ∀ rest, rest ≠ "" → text ≠ rest ++ "Service") :
    stripServiceSuffix (marked true false text) = marked true false text := by
  refine stripServiceSuffix_eq_self fun rest hrest heq => ?_
  rw [← String.toList_inj, toList_marked, toList_append_service, if_pos rfl,
    if_neg Bool.false_ne_true, List.append_nil, List.singleton_append] at heq
  obtain ⟨c, cs, hcs⟩ := List.exists_cons_of_ne_nil (mt String.toList_eq_nil_iff.mp hrest)
  rw [hcs, List.cons_append] at heq
  have htext : text = String.ofList cs ++ "Service" := by
    rw [← String.toList_inj, toList_append_service, String.toList_ofList]
    exact (List.cons.inj heq).2
  by_cases hcs : cs = []
  · rw [hcs, String.ofList_nil, String.empty_append] at htext
    exact hne htext
  · exact h _ (mt String.ofList_eq_empty_iff.mp hcs) htext

/-- A marker behind the text hides the ending from `stripServiceSuffix`. -/
theorem stripServiceSuffix_marked_back (front : Bool) (text : String) :
    stripServiceSuffix (marked front true text) = marked front true text := by
  refine stripServiceSuffix_eq_self fun rest _ heq => ?_
  have hlast := congrArg (·.toList.getLast?) heq
  simp only [toList_marked, toList_append_service, if_pos, List.getLast?_concat] at hlast
  rw [List.getLast?_append, show serviceSuffix.getLast? = some 'e' from rfl] at hlast
  exact absurd (Option.some.inj hlast) (by decide)

end ServiceSuffix

namespace Declare

/-- The name that the step `x` reads, unless it stops. -/
def name? (x : Declare Name) (d : Draft) : Option Name :=
  (x.exec d).1.toOption

variable {text rest : String} (d : Draft)

theorem name?_parseName (role : NameRole) (text : String) :
    (parseName role text).name? d =
      if (Name.ofCase text).isEmpty then none else some (Name.ofCase text) := by
  rw [name?, parseName, checked]
  split <;> rfl

theorem name?_parseServiceName (text : String) : (parseServiceName text).name? d =
    (parseName .service (stripServiceSuffix text)).name? d := rfl

theorem name?_parseName_marked (h : Bare text) (role : NameRole) (front back : Bool) :
    (parseName role (marked front back text)).name? d = (parseName role text).name? d := by
  rw [name?_parseName, name?_parseName, Name.ofCase_marked h]

/-- The ending `Service`, where it is part of the name, makes the name longer. -/
theorem name?_parseName_append_ne (h : Bare (rest ++ "Service")) (role : NameRole) :
    (parseName role (rest ++ "Service")).name? d ≠ (parseName role rest).name? d := by
  have hlong : (Name.ofCase rest).letters < (Name.ofCase (rest ++ "Service")).letters := by
    have hrest := ((stripMarkers_sublist rest.toList).flatMap Text.lowerChar).length_le
    have hsuffix : 0 < (serviceSuffix.flatMap Text.lowerChar).length := by decide
    rw [Name.letters_ofCase, Name.letters_ofCase, h.stripMarkers_eq_self, toList_append_service,
      List.flatMap_append, List.length_append]
    omega
  rw [name?_parseName, name?_parseName, Name.isEmpty_of_letters (by omega),
    if_neg Bool.false_ne_true]
  split
  · exact Option.some_ne_none _
  · exact fun heq => by rw [Option.some.inj heq] at hlong; omega

/-- A marker behind the name of a service keeps the ending `Service` in the name. -/
theorem name?_parseServiceName_back (h : Bare text) (front : Bool) :
    (parseServiceName (marked front true text)).name? d = (parseServiceName text).name? d ↔
      ∀ rest, rest ≠ "" → text ≠ rest ++ "Service" := by
  rw [name?_parseServiceName, stripServiceSuffix_marked_back, name?_parseName_marked d h,
    name?_parseServiceName]
  constructor
  · rintro heq rest hne rfl
    rw [stripServiceSuffix_append hne] at heq
    exact name?_parseName_append_ne d h .service heq
  · intro hend
    rw [stripServiceSuffix_eq_self hend]

/-- A marker in front of the name of a service is enough for the ending to be taken off it, even if
the name is `Service`. -/
theorem name?_parseServiceName_front (h : Bare text) :
    (parseServiceName (marked true false text)).name? d = (parseServiceName text).name? d ↔
      text ≠ "Service" := by
  constructor
  · rintro heq rfl
    -- Nothing but the marker would be left, and a marker alone has no words.
    rw [name?_parseServiceName, name?_parseServiceName, name?_parseName, name?_parseName] at heq
    exact absurd heq (by decide +kernel)
  · intro hne
    rw [name?_parseServiceName, name?_parseServiceName]
    by_cases hend : ∃ rest, rest ≠ "" ∧ text = rest ++ "Service"
    · obtain ⟨rest, hrest, rfl⟩ := hend
      have hmarked : marked true false (rest ++ "Service") = "_" ++ rest ++ "Service" := by
        simp [marked, String.append_assoc]
      have hhead : rest.toList.head? ≠ some escapeMarker := by
        have := h.head
        rwa [toList_append_service,
          List.head?_append_of_ne_nil _ (mt String.toList_eq_nil_iff.mp hrest)] at this
      rw [hmarked, stripServiceSuffix_append (by simp), stripServiceSuffix_append hrest,
        name?_parseName, name?_parseName, Name.ofCase_front hhead]
    · have hend' : ∀ rest, rest ≠ "" → text ≠ rest ++ "Service" :=
        fun rest hrest heq => hend ⟨rest, hrest, heq⟩
      rw [stripServiceSuffix_marked_front hne hend', stripServiceSuffix_eq_self hend',
        name?_parseName_marked d h]

end Declare

/-! ## All readings -/

/-- What a marker at either end of the identifier `text` means for each of the readings. -/
theorem name_marked_eq_iff {text : String} (h : Bare text) (d : Draft) :
    -- Declared names are the same in all four spellings.
    (∀ role front back, (Declare.parseName role (marked front back text)).name? d =
      if text = "" then none else some (Name.ofCase text)) ∧
    -- With a marker, a reference to a type isn't taken for another spelling of a primitive one.
    (∀ front back, (front || back) = true →
      (referenceName (marked front back text) = referenceName text ↔
        text ∉ ["bool", "Double", "Float", "double", "float"])) ∧
    -- The ending of a service comes off behind a marker, even if nothing else is left,
    ((Declare.parseServiceName (marked true false text)).name? d =
        (Declare.parseServiceName text).name? d ↔ text ≠ "Service") ∧
    -- and stays if a marker follows.
    ∀ front, ((Declare.parseServiceName (marked front true text)).name? d =
        (Declare.parseServiceName text).name? d ↔
      ∀ rest, rest ≠ "" → text ≠ rest ++ "Service") := by
  refine ⟨fun role front back => ?_, fun front back hmark => ?_,
    Declare.name?_parseServiceName_front d h, Declare.name?_parseServiceName_back d h⟩
  · rw [Declare.name?_parseName_marked d h, Declare.name?_parseName]
    simp only [Name.isEmpty_ofCase h]
  · rw [referenceName_marked h hmark, eq_comm, referenceName_eq_ofCase_iff]

theorem name_marked_eq_iff_diskService :
    Bare "DiskService" ∧
      (Declare.parseServiceName "_DiskService").name? {} = some ⟨["disk"]⟩ ∧
      (Declare.parseServiceName "DiskService_").name? {} ≠
        (Declare.parseServiceName "DiskService").name? {} ∧
      referenceName "_DiskService_" = referenceName "DiskService" := by
  have h : Bare "DiskService" := ⟨by decide, by decide⟩
  obtain ⟨-, href, hfront, hback⟩ := name_marked_eq_iff h {}
  refine ⟨h, ?_, fun heq => ?_, (href true true rfl).mpr (by decide)⟩
  · exact (hfront.mpr (by decide)).trans (by decide +kernel)
  · exact (hback false).mp heq "Disk" (by decide) rfl

/-- Markers can change the name of a primitive type, as that of `double`, and of a service. -/
theorem markers_not_transparent :
    (Bare "double" ∧ referenceName "double_" ≠ referenceName "double") ∧
      (Bare "DiskService" ∧ (Declare.parseServiceName "DiskService_").name? {} ≠
        (Declare.parseServiceName "DiskService").name? {}) ∧
      (Bare "Service" ∧ (Declare.parseServiceName "_Service").name? {} = none ∧
        (Declare.parseServiceName "Service").name? {} = some ⟨["service"]⟩) := by
  refine ⟨⟨⟨?_, ?_⟩, ?_⟩, ⟨⟨?_, ?_⟩, ?_⟩, ⟨?_, ?_⟩, ?_, ?_⟩ <;> decide +kernel

end ApiModel
