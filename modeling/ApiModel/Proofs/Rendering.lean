import ApiModel.Proofs.Escaping
import ApiModel.Proofs.Outline

/-!
# Tags, written and read

A tag is read back as the event it was written for, whatever its attributes
hold, and the lines of a sequence of tags are read back as these tags with
nothing but spaces between them. Names of tags are written as they are, so they
have to be legible; what may be any text are the values of attributes.
-/

namespace ApiModel.Xml

variable {cs ds rest : List Char} {quote quote' quote'' : Option Char}

/-! ## The end of a tag -/

/-- Looking for the end of a tag goes past `cs`, which leads from the state `quote` of quotation
into `quote'`. -/
def Passes (quote : Option Char) (cs : List Char) (quote' : Option Char) : Prop :=
  ∀ rest, splitTag quote (cs ++ rest) =
    (splitTag quote' rest).map fun (before, after) => (cs ++ before, after)

theorem Passes.append (h : Passes quote cs quote') (h' : Passes quote' ds quote'') :
    Passes quote (cs ++ ds) quote'' := by
  intro rest
  rw [List.append_assoc, h, h']
  rcases splitTag quote'' rest with fault | ⟨before, after⟩
  · rfl
  · simp [Except.map]

theorem passes_singleton {c : Char} (h : c ≠ '>' ∨ quote.isSome = true) :
    Passes quote [c] (nextQuote c quote) := by
  intro rest
  rw [List.singleton_append, splitTag, if_neg]
  · rfl
  · rcases h with h | h
    · simp [h]
    · simp [Option.isSome_iff_ne_none.mp h]

/-- Characters that leave the state `quote` alone. -/
theorem passes_of_forall (h : ∀ c ∈ cs, (c ≠ '>' ∨ quote.isSome = true) ∧ nextQuote c quote = quote) :
    Passes quote cs quote := by
  induction cs with
  | nil =>
    intro rest
    rw [List.nil_append]
    rcases splitTag quote rest with fault | ⟨before, after⟩ <;> rfl
  | cons c cs ih =>
    obtain ⟨⟨hc, hquote⟩, hcs⟩ := List.forall_mem_cons.mp h
    have hfirst := passes_singleton hc
    rw [hquote] at hfirst
    exact hfirst.append (ih hcs)

theorem passes_name (h : ∀ c ∈ cs, isNameChar c = true) : Passes none cs none :=
  passes_of_forall fun c hc => ⟨.inl (ne_of_isNameChar (h c hc) (by decide)),
    by rw [nextQuote, isQuote_of_isNameChar (h c hc)]; rfl⟩

theorem passes_attributeChars {key : String} (hkey : isLegible key = true) (value : String) :
    Passes none (attributeChars key value) none := by
  have hvalue : Passes (some '"') (value.toList.flatMap escapeChar) (some '"') :=
    passes_of_forall fun c hc => ⟨.inr rfl, if_neg fun h => quote_notMem_flatMap _ (h ▸ hc)⟩
  have hsplit : attributeChars key value =
      [' '] ++ key.toList ++ ['='] ++ ['"'] ++ value.toList.flatMap escapeChar ++ ['"'] := by
    simp [attributeChars]
  have hspace : Passes none [' '] none := passes_singleton (.inl (by decide))
  have hequals : Passes none ['='] none := passes_singleton (.inl (by decide))
  have hopen : Passes none ['"'] (some '"') := passes_singleton (.inl (by decide))
  have hclose : Passes (some '"') ['"'] none := passes_singleton (.inl (by decide))
  rw [hsplit]
  exact ((((hspace.append (passes_name (isLegible_iff.mp hkey).2)).append hequals).append
    hopen).append hvalue).append hclose

theorem passes_attributesChars {attributes : List (String × String)}
    (hkeys : ∀ a ∈ attributes, isLegible a.1 = true) :
    Passes none (attributesChars attributes) none := by
  induction attributes with
  | nil => exact passes_of_forall (by simp [attributesChars])
  | cons a attributes ih =>
    obtain ⟨hkey, hkeys⟩ := List.forall_mem_cons.mp hkeys
    exact (passes_attributeChars hkey a.2).append (ih hkeys)

theorem Passes.splitTag_eq (h : Passes none cs none) (rest : List Char) :
    splitTag none (cs ++ '>' :: rest) = .ok (cs, rest) := by
  rw [h, splitTag]
  simp [Except.map]

/-! ## Tags -/

namespace Tag

def name : Tag → String
  | start name _ => name
  | empty name _ => name
  | stop name => name

def attributes : Tag → List (String × String)
  | start _ attributes => attributes
  | empty _ attributes => attributes
  | stop _ => []

/-- The tag `t` has names that can be written as they are, and no key twice. -/
def isLegible (t : Tag) : Bool :=
  Xml.isLegible t.name && t.attributes.all (Xml.isLegible ·.1) && (t.attributes.map (·.1)).Nodup

/-- The `Event` that a tag is written for. -/
def event : Tag → Event
  | start name attributes => .start name.toList (attributesChars attributes)
  | empty name attributes => .empty name.toList (attributesChars attributes)
  | stop name => .stop name.toList

@[simp] theorem isTag_event (t : Tag) : t.event.isTag = true := by
  cases t <;> rfl

theorem isLegible_eq {t : Tag} : t.isLegible = true ↔ Xml.isLegible t.name = true ∧
    (∀ a ∈ t.attributes, Xml.isLegible a.1 = true) ∧ (t.attributes.map (·.1)).Nodup := by
  simp only [isLegible, Bool.and_eq_true, List.all_eq_true, decide_eq_true_eq, and_assoc]

end Tag

theorem splitName_eq {name : String} (hname : isLegible name = true)
    (attributes : List (String × String)) :
    splitName (name.toList ++ attributesChars attributes) =
      (name.toList, attributesChars attributes) := by
  have hchars : ∀ c ∈ name.toList, (!isSpace c) = true := fun c hc => by
    rw [isSpace_of_isNameChar ((isLegible_iff.mp hname).2 c hc)]
    rfl
  rw [splitName, List.span_eq_takeWhile_dropWhile, List.takeWhile_append_of_pos hchars,
    List.dropWhile_append_of_pos hchars]
  cases attributes with
  | nil => simp [attributesChars]
  | cons a attributes =>
    have hspace : attributesChars (a :: attributes) =
        ' ' :: (attributesChars (a :: attributes)).tail := rfl
    rw [hspace, List.takeWhile_cons_of_neg (by decide), List.dropWhile_cons_of_neg (by decide),
      List.append_nil]

/-- The inside of a `start` tag never ends like that of an `empty` tag. -/
theorem getLast?_ne_slash {name : String} (hname : isLegible name = true)
    (attributes : List (String × String)) :
    (name.toList ++ attributesChars attributes).getLast? ≠ some '/' := by
  intro h
  rcases List.eq_nil_or_concat' attributes with rfl | ⟨attributes', a, rfl⟩
  · rw [attributesChars, List.flatMap_nil, List.append_nil] at h
    exact absurd ((isLegible_iff.mp hname).2 '/' (List.mem_of_getLast? h)) (by decide)
  · have hquote : attributesChars (attributes' ++ [a]) = attributesChars attributes' ++
        (' ' :: a.1.toList ++ ['=', '"'] ++ a.2.toList.flatMap escapeChar) ++ ['"'] := by
      simp [attributesChars, attributeChars]
    rw [hquote, ← List.append_assoc, List.getLast?_concat] at h
    exact absurd h (by decide)

/-- What begins with a `name` is a start tag or an empty tag. -/
theorem readMarkup_of_isLegible {name : String} (hname : isLegible name = true) (cs : List Char) :
    readMarkup (name.toList ++ cs) = readStart (name.toList ++ cs) := by
  obtain ⟨hne, hchars⟩ := isLegible_iff.mp hname
  obtain ⟨c, ds, hds⟩ := List.exists_cons_of_ne_nil hne
  rw [hds, List.cons_append]
  have hc : isNameChar c = true := hchars c (by rw [hds]; exact List.mem_cons_self)
  have hother : ∀ {d : Char} {rest : List Char}, isNameChar d = false →
      c :: (ds ++ cs) ≠ d :: rest := fun hd h =>
    ne_of_isNameChar hc hd (List.cons.inj h).1
  unfold readMarkup
  split
  · rename_i h
    cases h
  · exact absurd ‹_› (hother (by decide))
  · exact absurd ‹_› (hother (by decide))
  · exact absurd ‹_› (hother (by decide))
  · rfl

theorem stopName_eq {name : String} (hname : isLegible name = true) :
    stopName name.toList = name.toList := by
  obtain ⟨hne, hchars⟩ := isLegible_iff.mp hname
  have hdrop : name.toList.reverse.dropWhile isSpace = name.toList.reverse := by
    obtain ⟨c, cs, hcs⟩ := List.exists_cons_of_ne_nil (List.reverse_ne_nil_iff.mpr hne)
    rw [hcs, List.dropWhile_cons_of_neg]
    rw [isSpace_of_isNameChar (hchars c (List.mem_reverse.mp (hcs ▸ List.mem_cons_self)))]
    exact Bool.false_ne_true
  unfold stopName
  split
  · rfl
  · rw [hdrop, List.reverse_reverse]

/-- By `readEvent`, the tag `t` is read as what it is written for. -/
theorem readEvent_chars {t : Tag} (h : t.isLegible = true) (rest : List Char) :
    ∃ cs, t.chars ++ rest = '<' :: cs ∧ readEvent '<' cs = .ok (t.event, rest) := by
  obtain ⟨hname, hkeys, -⟩ := Tag.isLegible_eq.mp h
  have hpasses := passes_name (isLegible_iff.mp hname).2
  cases t with
  | start name attributes =>
    simp only [Tag.name, Tag.attributes] at hname hkeys hpasses
    refine ⟨name.toList ++ (attributesChars attributes ++ '>' :: rest), by simp [Tag.chars], ?_⟩
    rw [readEvent, if_pos rfl, readMarkup_of_isLegible hname, ← List.append_assoc, readStart,
      (hpasses.append (passes_attributesChars hkeys)).splitTag_eq]
    simp only [bind, Except.bind]
    split
    · exact absurd ‹_› (getLast?_ne_slash hname attributes)
    · rw [splitName_eq hname]
      rfl
  | empty name attributes =>
    simp only [Tag.name, Tag.attributes] at hname hkeys hpasses
    have hslash : Passes none ['/'] none := passes_singleton (.inl (by decide))
    refine ⟨name.toList ++ (attributesChars attributes ++ ['/'] ++ '>' :: rest), by simp [Tag.chars],
      ?_⟩
    rw [readEvent, if_pos rfl, readMarkup_of_isLegible hname, ← List.append_assoc, readStart,
      ← List.append_assoc, ((hpasses.append (passes_attributesChars hkeys)).append hslash).splitTag_eq]
    simp only [bind, Except.bind]
    split
    · rw [List.dropLast_concat, splitName_eq hname]
      rfl
    · rename_i hlast
      exact absurd List.getLast?_concat hlast
  | stop name =>
    simp only [Tag.name] at hname hpasses
    refine ⟨'/' :: (name.toList ++ '>' :: rest), by simp [Tag.chars], ?_⟩
    rw [readEvent, if_pos rfl, readMarkup, readStop, hpasses.splitTag_eq]
    simp only [bind, Except.bind, stopName_eq hname]
    rfl

/-! ## Lines -/

/-- The event `e` is text without any characters but spaces. -/
def Event.IsBlank (e : Event) : Prop :=
  ∃ cs, e = .text cs ∧ ∀ c ∈ cs, isSpace c = true

theorem isText_of_isSpace {c : Char} (h : isSpace c = true) : isText c = true := by
  simp only [isSpace, Bool.or_eq_true, decide_eq_true_eq] at h
  rcases h with ((rfl | rfl) | rfl) | rfl <;> decide

theorem readEvent_blank {c : Char} (hc : isSpace c = true) (hcs : ∀ d ∈ cs, isSpace d = true)
    (hrest : ∀ d ∈ rest.head?, isText d = false) :
    readEvent c (cs ++ rest) = .ok (.text (c :: cs), rest) := by
  have htext : ∀ d ∈ cs, isText d = true := fun d hd => isText_of_isSpace (hcs d hd)
  have hstop : rest.takeWhile isText = [] ∧ rest.dropWhile isText = rest := by
    cases rest with
    | nil => exact ⟨rfl, rfl⟩
    | cons d rest =>
      have hd : ¬isText d = true := by
        rw [hrest d rfl]
        exact Bool.false_ne_true
      exact ⟨List.takeWhile_cons_of_neg hd, List.dropWhile_cons_of_neg hd⟩
  have hmarkup : c ≠ '<' ∧ c ≠ '&' := by
    have := isText_of_isSpace hc
    simpa [isText] using this
  rw [readEvent, if_neg hmarkup.1, if_neg hmarkup.2, List.takeWhile_append_of_pos htext,
    List.dropWhile_append_of_pos htext, hstop.1, hstop.2, List.append_nil]

/-- The `events` are those of the `tags`, with nothing but spaces between them. -/
structure Renders (events : List Located) (tags : List Tag) : Prop where
  tags : (events.map (·.event)).filter Event.isTag = tags.map Tag.event
  blank : ∀ e ∈ events, e.event.isTag = false → e.event.IsBlank

theorem Renders.append {events events' : List Located} {ts ts' : List Tag} (h : Renders events ts)
    (h' : Renders events' ts') : Renders (events ++ events') (ts ++ ts') where
  tags := by rw [List.map_append, List.filter_append, h.tags, h'.tags, List.map_append]
  blank e he := (List.mem_append.mp he).elim (h.blank e) (h'.blank e)

variable {opened opened' : List (List Char)}

theorem reads_blank {c : Char} (hc : isSpace c = true) (hcs : ∀ d ∈ cs, isSpace d = true)
    (hrest : ∀ d ∈ rest.head?, isText d = false) :
    Reads opened (c :: (cs ++ rest)) [⟨.text (c :: cs), rest⟩] opened rest :=
  .next (readEvent_blank hc hcs hrest) rfl .done

theorem reads_tag {t : Tag} (h : t.isLegible = true) (hnest : nest opened t.event = .ok opened')
    (rest : List Char) : Reads opened (t.chars ++ rest) [⟨t.event, rest⟩] opened' rest := by
  obtain ⟨cs, hchars, hread⟩ := readEvent_chars h rest
  rw [hchars]
  exact .next hread hnest .done

/-- The events of the tag `t` on a line of its own. -/
def lineEvents (indent : Nat) (t : Tag) (rest : List Char) : List Located :=
  [⟨.text ('\n' :: List.replicate indent ' '), t.chars ++ rest⟩, ⟨t.event, rest⟩]

theorem isSpace_of_mem_indent {indent : Nat} {c : Char} (h : c ∈ List.replicate indent ' ') :
    isSpace c = true := by
  rw [List.eq_of_mem_replicate h]
  rfl

theorem renders_line (indent : Nat) (t : Tag) (rest : List Char) :
    Renders (lineEvents indent t rest) [t] where
  tags := by simp [lineEvents, show ∀ cs, (Event.text cs).isTag = false from fun _ => rfl]
  blank e he htag := by
    rcases List.mem_cons.mp he with rfl | he
    · exact ⟨_, rfl, List.forall_mem_cons.mpr ⟨by decide, fun _ => isSpace_of_mem_indent⟩⟩
    · rw [List.mem_singleton.mp he, Tag.isTag_event] at htag
      cases htag

theorem reads_line {t : Tag} (h : t.isLegible = true) (hnest : nest opened t.event = .ok opened')
    (indent : Nat) (rest : List Char) :
    Reads opened ('\n' :: List.replicate indent ' ' ++ t.chars ++ rest) (lineEvents indent t rest)
      opened' rest := by
  obtain ⟨cs, hchars, -⟩ := readEvent_chars h rest
  have hnext : ∀ d ∈ (t.chars ++ rest).head?, isText d = false := fun d hd => by
    rw [hchars] at hd
    rw [← Option.some.inj hd]
    rfl
  rw [List.append_assoc]
  exact (reads_blank (by decide) (fun _ => isSpace_of_mem_indent) hnext).append
    (reads_tag h hnest rest)

/-- The tags `ts` on lines of their own are read back. -/
theorem reads_linesFrom {ts : List Tag} (hlegible : ∀ t ∈ ts, t.isLegible = true)
    (hnest : (ts.map Tag.event).foldlM nest opened = .ok opened') (indent : Nat) (rest : List Char) :
    ∃ events, Renders events ts ∧
      Reads opened (Tag.linesFrom indent ts ++ rest) events opened' rest := by
  induction ts generalizing opened indent with
  | nil =>
    obtain rfl := Except.ok.inj hnest
    exact ⟨[], ⟨rfl, by simp⟩, .done⟩
  | cons t ts ih =>
    obtain ⟨ht, hts⟩ := List.forall_mem_cons.mp hlegible
    rw [List.map_cons, List.foldlM_cons] at hnest
    rcases hfirst : nest opened t.event with fault | opened₁ <;> rw [hfirst] at hnest
    · cases hnest
    obtain ⟨events', hrenders', hreads'⟩ := ih hts hnest (t.nextIndent indent)
    have hreads := (reads_line ht hfirst (t.ownIndent indent) _).append hreads'
    rw [← List.append_assoc] at hreads
    exact ⟨_, (renders_line _ t _).append hrenders', hreads⟩

end ApiModel.Xml
