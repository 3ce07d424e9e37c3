import ApiModel.Proofs.CaseSplitting
import ApiModel.Proofs.Plurals
import Mathlib.Data.List.TakeWhile

/-!
# Spelling of plain names

Names are compared by their words, but a schema shows them as text: the words of
a type run together with a capital letter each, and those of an element are
joined by underscores. The first tells the words apart if capital letters stand
in front of words only and each of them is the capital of one letter. The second
does if no word has an underscore in it. Plurals keep both.

Not every name is like that. The capital of `ß` is written `SS`, as if there were
two words `s`, and a word may hold an underscore. Names that are written in ASCII
keep types apart, and with letters and digits only they keep elements apart, too.
-/

namespace ApiModel

/-! ## Letters and their capitals -/

namespace Text

/-- A character inside a word: lower case leaves `c` alone, and it is no capital letter. -/
def isPlain (c : Char) : Bool :=
  lowerChar c = [c] && !isUpper c

/-- The first character of the upper case of `c`. -/
def capital (c : Char) : Char :=
  (upperChar c).headD c

/-- The upper case is a single character, and it has `c` as its lower case. A character without
upper case is its own. -/
def hasCapital (c : Char) : Bool :=
  upperChar c = [capital c] && lowerChar (capital c) = [c]

/-- A letter `c` with a capital letter of its own. -/
def isInitial (c : Char) : Bool :=
  hasCapital c && isUpper (capital c)

theorem capital_inj {c c' : Char} (h : hasCapital c) (h' : hasCapital c')
    (heq : capital c = capital c') : c = c' := by
  simp only [hasCapital, Bool.and_eq_true, decide_eq_true_eq] at h h'
  have hlower : [c] = [c'] := by rw [← h.2, ← h'.2, heq]
  exact List.singleton_inj.mp hlower

theorem lower_eq_self {w : String} (h : ∀ c ∈ w.toList, isPlain c) : lower w = w := by
  refine lower_eq_self_iff.mpr fun c hc => ?_
  have hplain := h c hc
  simp only [isPlain, Bool.and_eq_true, decide_eq_true_eq] at hplain
  exact hplain.1

theorem toList_capitalize {w : String} (h : ∀ c, w.toList.head? = some c → hasCapital c) :
    (capitalize w).toList = w.toList.modifyHead capital := by
  unfold capitalize
  split
  · rename_i hw
    rw [hw]
    rfl
  · rename_i c cs hw
    have hc := h c (by rw [hw]; rfl)
    simp only [hasCapital, Bool.and_eq_true, decide_eq_true_eq] at hc
    rw [hw, String.toList_ofList, hc.1]
    rfl

end Text

/-! ## Plain names -/

/-- The words of `n` are plain, and each starts with a character that has a capital; a capital
letter, for each word after the first. -/
structure Name.Plain (n : Name) : Prop where
  nonempty : n.words ≠ []
  word : ∀ w ∈ n.words, w.toList ≠ [] ∧ ∀ c ∈ w.toList, Text.isPlain c
  capital : ∀ w ∈ n.words, ∀ c ∈ w.toList.head?, Text.hasCapital c
  initial : ∀ w ∈ n.words.tail, ∀ c ∈ w.toList.head?, Text.isInitial c

theorem Name.Plain.canonical {n : Name} (h : n.Plain) : n.Canonical where
  nonempty w hw hempty := (h.word w hw).1 (by rw [hempty]; rfl)
  lowered w hw := Text.lower_eq_self (h.word w hw).2

/-- No word of `n` has an underscore in it. -/
def Name.Unbroken (n : Name) : Prop :=
  ∀ w ∈ n.words, '_' ∉ w.toList

/-! ## Plurals and further words -/

namespace Pluralizer

theorem isPlain_of_ending : ∀ c ∈ endingLetters, Text.isPlain c :=
  List.all_eq_true.mp (by decide)

/-- The plural of a `Plain` name has another last word, and nothing else. -/
theorem words_plural {n : Name} (h : n.Plain) : ∃ init w,
    n.words = init ++ [w] ∧ (english.plural n).words =
      init ++ [String.ofList (pluralChars w.toList)] := by
  have hn := (List.dropLast_concat_getLast h.nonempty).symm
  exact ⟨_, _, hn, by rw [plural_eq h.canonical hn]⟩

end Pluralizer

namespace Name

theorem Plain.plural {n : Name} (h : n.Plain) : (Pluralizer.english.plural n).Plain := by
  obtain ⟨init, w, hn, hplural⟩ := Pluralizer.words_plural h
  have hw : w ∈ n.words := by simp [hn]
  obtain ⟨hne, hplain⟩ := h.word w hw
  obtain ⟨hhead, hmem⟩ := Pluralizer.head?_pluralChars hne
  have hinit : ∀ x ∈ init, x ∈ n.words := fun x hx => by simp [hn, hx]
  refine ⟨by simp [hplural], fun x hx => ?_, fun x hx c hc => ?_, fun x hx c hc => ?_⟩
  · rw [hplural] at hx
    rcases List.mem_append.mp hx with hx | hx
    · exact h.word x (hinit x hx)
    · obtain rfl := List.mem_singleton.mp hx
      rw [String.toList_ofList]
      exact ⟨Pluralizer.pluralChars_ne_nil hne,
        fun c hc => (hmem c hc).elim (hplain c) (Pluralizer.isPlain_of_ending c)⟩
  · rw [hplural] at hx
    rcases List.mem_append.mp hx with hx | hx
    · exact h.capital x (hinit x hx) c hc
    · obtain rfl := List.mem_singleton.mp hx
      rw [String.toList_ofList, hhead] at hc
      exact h.capital w hw c hc
  · rw [hplural] at hx
    have hinitial := h.initial
    rw [hn] at hinitial
    cases init with
    | nil => cases hx
    | cons first init =>
      rcases List.mem_append.mp hx with hx | hx
      · exact hinitial x (List.mem_append_left _ hx) c hc
      · obtain rfl := List.mem_singleton.mp hx
        rw [String.toList_ofList, hhead] at hc
        exact hinitial w (by simp) c hc

theorem Unbroken.plural {n : Name} (h : n.Unbroken) (hp : n.Plain) :
    (Pluralizer.english.plural n).Unbroken := by
  obtain ⟨init, w, hn, hplural⟩ := Pluralizer.words_plural hp
  have hw : w ∈ n.words := by simp [hn]
  intro x hx hmem
  rw [hplural] at hx
  rcases List.mem_append.mp hx with hx | hx
  · exact h x (by simp [hn, hx]) hmem
  · obtain rfl := List.mem_singleton.mp hx
    rw [String.toList_ofList] at hmem
    rcases (Pluralizer.head?_pluralChars (hp.word w hw).1).2 _ hmem with hmem | hmem
    · exact h w hw hmem
    · exact absurd hmem (by decide)

/-- The name `n` with one more `word`. -/
def withLast (n : Name) (word : String) : Name :=
  ⟨n.words ++ [word]⟩

theorem withLast_inj {n n' : Name} {word : String} :
    n.withLast word = n'.withLast word ↔ n = n' := by
  rw [withLast, withLast, mk.injEq, List.append_left_inj]
  exact ⟨fun h => by cases n; cases n'; exact congrArg mk h, fun h => by rw [h]⟩

theorem Plain.withLast {n : Name} (h : n.Plain) {w : String} (hne : w.toList ≠ [])
    (hw : w.toList.all Text.isPlain = true) (hhead : w.toList.head?.all Text.isInitial = true) :
    (n.withLast w).Plain where
  nonempty := by simp [Name.withLast]
  word x hx := by
    rcases List.mem_append.mp hx with hx | hx
    · exact h.word x hx
    · obtain rfl := List.mem_singleton.mp hx
      exact ⟨hne, List.all_eq_true.mp hw⟩
  capital x hx c hc := by
    rcases List.mem_append.mp hx with hx | hx
    · exact h.capital x hx c hc
    · obtain rfl := List.mem_singleton.mp hx
      rw [Option.mem_def.mp hc] at hhead
      exact (Bool.and_eq_true_iff.mp hhead).1
  initial x hx c hc := by
    rw [Name.withLast, List.tail_append_of_ne_nil h.nonempty] at hx
    rcases List.mem_append.mp hx with hx | hx
    · exact h.initial x hx c hc
    · obtain rfl := List.mem_singleton.mp hx
      rw [Option.mem_def.mp hc] at hhead
      exact hhead

end Name

/-! ## Spelling tells plain names apart -/

section Injective

variable {c c' : Char} {cs cs' rest rest' : List Char}

/-- A capital letter ends what stands in front of it, `cs`. -/
theorem takeWhile_until_capital (hcs : ∀ d ∈ cs, Text.isPlain d)
    (hrest : ∀ d ∈ rest.head?, Text.isUpper d) :
    (cs ++ rest).takeWhile (fun d => !Text.isUpper d) = cs := by
  rw [List.takeWhile_append_of_pos fun d hd => (Bool.and_eq_true_iff.mp (hcs d hd)).2]
  cases rest with
  | nil => simp
  | cons d rest => simp [hrest d rfl]

/-- The first word, `c` and `cs`, can be read off. -/
theorem capitalized_cancel (hc : Text.hasCapital c) (hc' : Text.hasCapital c')
    (hcs : ∀ d ∈ cs, Text.isPlain d) (hcs' : ∀ d ∈ cs', Text.isPlain d)
    (hrest : ∀ d ∈ rest.head?, Text.isUpper d) (hrest' : ∀ d ∈ rest'.head?, Text.isUpper d)
    (h : Text.capital c :: (cs ++ rest) = Text.capital c' :: (cs' ++ rest')) :
    c :: cs = c' :: cs' ∧ rest = rest' := by
  obtain ⟨hhead, htail⟩ := List.cons.inj h
  have hchar : c = c' := Text.capital_inj hc hc' hhead
  have hword : cs = cs' := by
    rw [← takeWhile_until_capital hcs hrest, ← takeWhile_until_capital hcs' hrest', htail]
  subst hchar hword
  exact ⟨rfl, List.append_cancel_left htail⟩

/-- Words `ws` that can be told apart when they run together. -/
structure Separable (ws : List (List Char)) : Prop where
  word : ∀ w ∈ ws, w ≠ [] ∧ ∀ c ∈ w, Text.isPlain c
  capital : ∀ w ∈ ws, ∀ c ∈ w.head?, Text.hasCapital c
  initial : ∀ w ∈ ws.tail, ∀ c ∈ w.head?, Text.isInitial c

theorem Separable.tail {w : List Char} {ws : List (List Char)} (h : Separable (w :: ws)) :
    Separable ws where
  word x hx := h.word x (List.mem_cons_of_mem w hx)
  capital x hx := h.capital x (List.mem_cons_of_mem w hx)
  initial x hx := h.initial x (List.mem_of_mem_tail hx)

/-- What follows the first word of `Separable` ones starts with a capital letter. -/
theorem Separable.isUpper_head? {w : List Char} {ws : List (List Char)} (h : Separable (w :: ws)) :
    ∀ d ∈ (ws.flatMap (·.modifyHead Text.capital)).head?, Text.isUpper d := by
  intro d hd
  cases ws with
  | nil => cases hd
  | cons x ws =>
    cases x with
    | nil => exact absurd rfl (h.word [] (by simp)).1
    | cons c cs =>
      obtain rfl := Option.some.inj hd
      exact (Bool.and_eq_true_iff.mp (h.initial (c :: cs) List.mem_cons_self c rfl)).2

theorem Separable.eq_nil {ws : List (List Char)} (h : Separable ws)
    (hnil : ws.flatMap (·.modifyHead Text.capital) = []) : ws = [] := by
  cases ws with
  | nil => rfl
  | cons w ws =>
    cases w with
    | nil => exact absurd rfl (h.word [] List.mem_cons_self).1
    | cons => cases hnil

theorem Separable.flatMap_inj {ws ws' : List (List Char)} (h : Separable ws) (h' : Separable ws')
    (heq : ws.flatMap (·.modifyHead Text.capital) = ws'.flatMap (·.modifyHead Text.capital)) :
    ws = ws' := by
  induction ws generalizing ws' with
  | nil => exact (h'.eq_nil heq.symm).symm
  | cons w ws ih =>
    cases ws' with
    | nil => exact h.eq_nil heq
    | cons w' ws' =>
      obtain ⟨hne, hplain⟩ := h.word w List.mem_cons_self
      obtain ⟨hne', hplain'⟩ := h'.word w' List.mem_cons_self
      cases w with
      | nil => exact absurd rfl hne
      | cons c cs =>
        cases w' with
        | nil => exact absurd rfl hne'
        | cons c' cs' =>
          obtain ⟨hword, hrest⟩ := capitalized_cancel
            (h.capital _ List.mem_cons_self c rfl) (h'.capital _ List.mem_cons_self c' rfl)
            (fun d hd => hplain d (List.mem_cons_of_mem c hd))
            (fun d hd => hplain' d (List.mem_cons_of_mem c' hd))
            h.isUpper_head? h'.isUpper_head? heq
          rw [hword, ih h.tail h'.tail hrest]

end Injective

namespace Name

variable {n n' : Name}

theorem eq_of_words (h : n.words.map String.toList = n'.words.map String.toList) : n = n' := by
  cases n
  cases n'
  exact congrArg mk (List.map_injective_iff.mpr (fun _ _ => String.toList_inj.mp) h)

theorem Plain.separable (h : n.Plain) : Separable (n.words.map String.toList) where
  word w hw := by
    obtain ⟨x, hx, rfl⟩ := List.mem_map.mp hw
    exact h.word x hx
  capital w hw := by
    obtain ⟨x, hx, rfl⟩ := List.mem_map.mp hw
    exact h.capital x hx
  initial w hw := by
    rw [← List.map_tail] at hw
    obtain ⟨x, hx, rfl⟩ := List.mem_map.mp hw
    exact h.initial x hx

theorem Plain.toList_capitalized (h : n.Plain) : (SchemaNaming.capitalized n).toList =
    (n.words.map String.toList).flatMap (·.modifyHead Text.capital) := by
  rw [SchemaNaming.capitalized, String.toList_join, List.flatMap_map, List.flatMap_map]
  exact List.flatMap_congr fun w hw => Text.toList_capitalize (h.capital w hw)

/-- Types with different `Plain` names are spelled differently. -/
theorem Plain.capitalized_inj (h : n.Plain) (h' : n'.Plain)
    (heq : SchemaNaming.capitalized n = SchemaNaming.capitalized n') : n = n' := by
  refine eq_of_words (h.separable.flatMap_inj h'.separable ?_)
  rw [← h.toList_capitalized, ← h'.toList_capitalized, heq]

theorem Unbroken.splitOn (h : n.Unbroken) (hne : n.words ≠ []) :
    (n.join "_").toList.splitOn '_' = n.words.map String.toList := by
  rw [Name.join, String.toList_intercalate]
  refine List.splitOn_intercalate '_' (fun w hw => ?_) (by simpa using hne)
  obtain ⟨x, hx, rfl⟩ := List.mem_map.mp hw
  exact h x hx

/-- Elements with different `Unbroken` names are spelled differently. -/
theorem Unbroken.join_inj (h : n.Unbroken) (h' : n'.Unbroken) (hne : n.words ≠ [])
    (hne' : n'.words ≠ []) (heq : n.join "_" = n'.join "_") : n = n' := by
  refine eq_of_words ?_
  rw [← h.splitOn hne, ← h'.splitOn hne', heq]

end Name

/-! ## Names in ASCII -/

namespace Text

theorem lt_of_isAlphanum {c : Char} (h : c.isAlphanum) : c.toNat < 128 := by
  delta Char.isAlphanum Char.isAlpha Char.isUpper Char.isLower Char.isDigit at h
  simp only [Bool.or_eq_true, Bool.and_eq_true, decide_eq_true_eq, ge_iff_le,
    UInt32.le_iff_toNat_le] at h
  have hnat : c.toNat = c.val.toNat := rfl
  simp only [UInt32.reduceToNat, Char.reduceVal] at h
  omega

theorem plain_toLower {c : Char} (h : c.toNat < 128) : isPlain c.toLower ∧ hasCapital c.toLower :=
  forall_ascii (P := fun c => isPlain c.toLower ∧ hasCapital c.toLower) (by decide) c h

theorem toLower_ne_underscore {c : Char} (h : c.isAlphanum) : c.toLower ≠ '_' :=
  forall_ascii (P := fun c => c.isAlphanum → c.toLower ≠ '_') (by decide) c (lt_of_isAlphanum h) h

theorem isInitial_toLower {c : Char} (h : c.toNat < 128) (hc : isUpper c) : isInitial c.toLower :=
  forall_ascii (P := fun c => isUpper c → isInitial c.toLower) (by decide) c h hc

end Text

section Parse

variable {text : String}

/-- In ASCII, `ofCase` lowers each character for itself. -/
theorem words_ofCase_ascii (h : ∀ c ∈ stripMarkers text.toList, c.toNat < 128) :
    (Name.ofCase text).words = (splitCase (stripMarkers text.toList)).map
      fun seg => String.ofList (seg.map Char.toLower) := by
  rw [Name.words_ofCase]
  refine List.map_congr_left fun seg hseg => ?_
  unfold Text.lower Text.lowerChars
  rw [String.toList_ofList, Text.lowerFrom_ascii]
  exact fun c hc => h c (mem_of_mem_splitCase hseg hc)

/-- What `ofCase` reads from ASCII is `Plain`. -/
theorem Name.plain_ofCase_ascii (h : ∀ c ∈ stripMarkers text.toList, c.toNat < 128)
    (hn : (Name.ofCase text).isEmpty = false) : (Name.ofCase text).Plain := by
  have hwords := words_ofCase_ascii h
  have hseg : ∀ seg ∈ splitCase (stripMarkers text.toList), ∀ c ∈ seg, c.toNat < 128 :=
    fun seg hs c hc => h c (mem_of_mem_splitCase hs hc)
  refine ⟨fun hnil => ?_, fun w hw => ?_, fun w hw c hc => ?_, fun w hw c hc => ?_⟩
  · rw [Name.isEmpty, hnil] at hn
    cases hn
  · rw [hwords] at hw
    obtain ⟨seg, hs, rfl⟩ := List.mem_map.mp hw
    rw [String.toList_ofList]
    refine ⟨by simpa using ne_nil_of_mem_splitCase hs, fun c hc => ?_⟩
    obtain ⟨d, hd, rfl⟩ := List.mem_map.mp hc
    exact (Text.plain_toLower (hseg seg hs d hd)).1
  · rw [hwords] at hw
    obtain ⟨seg, hs, rfl⟩ := List.mem_map.mp hw
    rw [String.toList_ofList, List.head?_map] at hc
    obtain ⟨d, hd, rfl⟩ := Option.map_eq_some_iff.mp hc
    exact (Text.plain_toLower (hseg seg hs d (List.mem_of_head? hd))).2
  · rw [hwords, ← List.map_tail] at hw
    obtain ⟨seg, hs, rfl⟩ := List.mem_map.mp hw
    rw [String.toList_ofList, List.head?_map] at hc
    obtain ⟨d, hd, rfl⟩ := Option.map_eq_some_iff.mp hc
    exact Text.isInitial_toLower
      (hseg seg (List.mem_of_mem_tail hs) d (List.mem_of_head? hd)) (isUpper_of_mem_tail hs hd)

/-- What `ofCase` reads from ASCII letters and digits has no underscores, either: it is
`Unbroken`. -/
theorem Name.plain_ofCase (hascii : (stripMarkers text.toList).all Char.isAlphanum = true)
    (hn : (Name.ofCase text).isEmpty = false) :
    (Name.ofCase text).Plain ∧ (Name.ofCase text).Unbroken := by
  have h := List.all_eq_true.mp hascii
  have hlt : ∀ c ∈ stripMarkers text.toList, c.toNat < 128 :=
    fun c hc => Text.lt_of_isAlphanum (h c hc)
  refine ⟨plain_ofCase_ascii hlt hn, fun w hw hmem => ?_⟩
  rw [words_ofCase_ascii hlt] at hw
  obtain ⟨seg, hs, rfl⟩ := List.mem_map.mp hw
  rw [String.toList_ofList] at hmem
  obtain ⟨d, hd, heq⟩ := List.mem_map.mp hmem
  exact Text.toLower_ne_underscore (h d (mem_of_mem_splitCase hs hd)) heq

end Parse

end ApiModel
