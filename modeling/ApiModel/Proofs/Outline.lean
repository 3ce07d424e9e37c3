import ApiModel.Xml.Event
import Mathlib.Data.List.Infix
import Mathlib.Data.List.TakeWhile

/-!
# What an outline says about a text

Reading never skips anything: every event has a text of its own, and these texts
follow each other without gaps. The text of a tag is known from its event, up to
spaces at the end of an end tag.

`Reads` relates a text to its events, one event after the other, and needs no
bound on their number. It composes, so a document can be read in parts.

What is said elsewhere of documents rests on less than that. `Covers` leaves
open how an event is found and keeps only that its text is the next one and that
tags match. An outline that covers its text in this way is `Outline.Faithful`.
`outline` is one reader whose outlines are.
-/

namespace ApiModel.Xml

variable {cs before after rest : List Char} {e : Event}

/-! ## Finding the end -/

theorem splitTag_eq_ok {quote : Option Char} (h : splitTag quote cs = .ok (before, after)) :
    cs = before ++ '>' :: after := by
  induction cs generalizing quote before with
  | nil => cases h
  | cons c cs ih =>
    rw [splitTag] at h
    split at h
    · rename_i hc
      obtain ⟨rfl, rfl⟩ := Prod.mk.inj (Except.ok.inj h)
      simp only [Bool.and_eq_true, decide_eq_true_eq] at hc
      rw [hc.1, List.nil_append]
    · rcases hs : splitTag (nextQuote c quote) cs with fault | ⟨before', after'⟩
      · rw [hs] at h
        cases h
      · rw [hs] at h
        obtain ⟨rfl, rfl⟩ := Prod.mk.inj (Except.ok.inj h)
        rw [ih hs, List.cons_append]

theorem splitFirst?_eq_some {mark : List Char}
    (h : splitFirst? mark cs = some (before, after)) : cs = before ++ (mark ++ after) := by
  induction cs generalizing before with
  | nil =>
    rw [splitFirst?] at h
    split at h
    · rename_i hm
      obtain ⟨rfl, rfl⟩ := Prod.mk.inj (Option.some.inj h)
      rw [hm]
      rfl
    · cases h
  | cons c cs ih =>
    rw [splitFirst?] at h
    split at h
    · rename_i rest hp
      obtain ⟨rfl, rfl⟩ := Prod.mk.inj (Option.some.inj h)
      exact (List.append_eq_of_isPrefixOf?_eq_some hp).symm
    · obtain ⟨⟨before', after'⟩, hs, he⟩ := Option.map_eq_some_iff.mp h
      obtain ⟨rfl, rfl⟩ := Prod.mk.inj he
      rw [ih hs, List.cons_append]

theorem splitDoctype?_suffix {state : DoctypeState} {skip : Nat}
    (h : splitDoctype? state skip cs = some (before, after)) : after <:+ cs := by
  induction cs generalizing state skip before with
  | nil => cases h
  | cons c cs ih =>
    -- Either the declaration ends at `c`, or reading goes on in some state.
    have hgo : ∀ {state skip}, (splitDoctype? state skip cs).map
        (fun (x : List Char × List Char) => (c :: x.1, x.2)) = some (before, after) →
        after <:+ c :: cs := by
      intro state skip h
      obtain ⟨⟨before', after'⟩, hs, he⟩ := Option.map_eq_some_iff.mp h
      obtain ⟨rfl, rfl⟩ := Prod.mk.inj he
      exact (ih hs).trans (List.suffix_cons c cs)
    have hend : some (([] : List Char), cs) = some (before, after) → after <:+ c :: cs := by
      intro h
      obtain ⟨rfl, rfl⟩ := Prod.mk.inj (Option.some.inj h)
      exact List.suffix_cons c cs
    unfold splitDoctype? at h
    split at h
    · exact hgo h
    · split at h
      · split at h
        · exact hend h
        · split at h <;> exact hgo h
      · split at h
        · exact hgo h
        · split at h <;> exact hgo h
      · exact hgo h
      · split at h <;> exact hgo h
      · split at h <;> exact hgo h
      · split at h
        · exact hend h
        · exact hgo h

/-! ## The texts of events -/

def Event.isTag : Event → Bool
  | .start _ _ | .empty _ _ | .stop _ => true
  | _ => false

/-- The text of an event is `w`. Of events that aren't tags it only matters that there is one. -/
def Event.SpelledAs : Event → List Char → Prop
  | .start name attributes, w => w = '<' :: name ++ attributes ++ ['>']
  | .empty name attributes, w => w = '<' :: name ++ attributes ++ ['/', '>']
  | .stop name, w =>
    ∃ space, (∀ c ∈ space, isSpace c = true) ∧ w = '<' :: '/' :: name ++ space ++ ['>']
  | _, w => w ≠ []

theorem Event.SpelledAs.ne_nil {w : List Char} (h : e.SpelledAs w) : w ≠ [] := by
  cases e with
  | start | empty => rw [h]; simp
  | stop =>
    obtain ⟨space, -, rfl⟩ := h
    simp
  | _ => exact h

/-- The event `e`, which isn't a tag, takes up some of the text. -/
def Event.Plain (cs rest : List Char) (e : Event) : Prop :=
  e.isTag = false ∧ rest <:+ cs

theorem Event.Plain.spelledAs {c : Char} (h : e.Plain cs rest) :
    ∃ w, e.SpelledAs w ∧ c :: cs = w ++ rest := by
  obtain ⟨hplain, w, rfl⟩ := h
  refine ⟨c :: w, ?_, rfl⟩
  cases e with
  | start | empty | stop => cases hplain
  | _ => exact List.cons_ne_nil c w

theorem Event.Plain.cons {c : Char} (h : e.Plain cs rest) : e.Plain (c :: cs) rest :=
  ⟨h.1, h.2.trans (List.suffix_cons c cs)⟩

theorem splitName_append (content : List Char) :
    (splitName content).1 ++ (splitName content).2 = content := by
  rw [splitName, List.span_eq_takeWhile_dropWhile]
  exact List.takeWhile_append_dropWhile

theorem readStart_eq_ok (h : readStart cs = .ok (e, rest)) :
    ∃ w, e.SpelledAs w ∧ '<' :: cs = w ++ rest := by
  rcases hs : splitTag none cs with fault | ⟨content, after⟩
  · simp [readStart, hs, bind, Except.bind] at h
  · have hcs := splitTag_eq_ok hs
    simp only [readStart, hs, bind, Except.bind] at h
    split at h
    · rename_i hlast
      obtain ⟨inside, rfl⟩ := List.getLast?_eq_some_iff.mp hlast
      obtain ⟨rfl, rfl⟩ := Prod.mk.inj (Except.ok.inj h)
      refine ⟨_, rfl, ?_⟩
      rw [hcs, List.dropLast_concat, List.cons_append, splitName_append]
      simp
    · obtain ⟨rfl, rfl⟩ := Prod.mk.inj (Except.ok.inj h)
      refine ⟨_, rfl, ?_⟩
      rw [hcs, List.cons_append, splitName_append]
      simp

/-- The inside of an end tag is its `stopName` and spaces. -/
theorem exists_stopName_append (content : List Char) :
    ∃ space, (∀ c ∈ space, isSpace c = true) ∧ content = stopName content ++ space := by
  have hsplit := List.takeWhile_append_dropWhile (p := isSpace) (l := content.reverse)
  unfold stopName
  split
  · exact ⟨[], by simp, (List.append_nil content).symm⟩
  · refine ⟨(content.reverse.takeWhile isSpace).reverse, fun c hc => ?_, ?_⟩
    · exact List.mem_takeWhile_imp (List.mem_reverse.mp hc)
    · rw [← List.reverse_append, hsplit, List.reverse_reverse]

theorem readStop_eq_ok (h : readStop cs = .ok (e, rest)) :
    ∃ w, e.SpelledAs w ∧ '<' :: '/' :: cs = w ++ rest := by
  rcases hs : splitTag none cs with fault | ⟨content, after⟩
  · simp [readStop, hs, bind, Except.bind] at h
  · have hcs := splitTag_eq_ok hs
    simp only [readStop, hs, bind, Except.bind] at h
    obtain ⟨rfl, rfl⟩ := Prod.mk.inj (Except.ok.inj h)
    obtain ⟨space, hspace, hcontent⟩ := exists_stopName_append content
    refine ⟨_, ⟨space, hspace, rfl⟩, ?_⟩
    calc '<' :: '/' :: cs
      _ = '<' :: '/' :: (stopName content ++ space) ++ '>' :: after := by
        rw [← hcontent, hcs]
        rfl
      _ = '<' :: '/' :: stopName content ++ space ++ ['>'] ++ after := by simp

theorem readInstruction_eq_ok (h : readInstruction cs = .ok (e, rest)) : e.Plain cs rest := by
  unfold readInstruction at h
  split at h
  · rename_i c content after hs
    obtain ⟨rfl, rfl⟩ := Prod.mk.inj (Except.ok.inj h)
    have hcs := splitFirst?_eq_some hs
    rw [List.cons_append, List.cons.injEq] at hcs
    refine ⟨rfl, ?_⟩
    rw [hcs.2, ← List.append_assoc]
    exact List.suffix_append _ _
  · cases h
  · cases h

theorem readComment_eq_ok (h : readComment cs = .ok (e, rest)) : e.Plain cs rest := by
  unfold readComment at h
  split at h
  · split at h
    · rename_i cs content after hs
      obtain ⟨rfl, rfl⟩ := Prod.mk.inj (Except.ok.inj h)
      refine ⟨rfl, ?_⟩
      rw [splitFirst?_eq_some hs, ← List.append_assoc, ← List.cons_append]
      exact List.suffix_append _ _
    · cases h
  · cases h

theorem readCdata_eq_ok (h : readCdata cs = .ok (e, rest)) : e.Plain cs rest := by
  unfold readCdata at h
  split at h
  · rename_i content after hs
    obtain ⟨rfl, rfl⟩ := Prod.mk.inj (Except.ok.inj h)
    obtain ⟨inside, hp, hs⟩ := Option.bind_eq_some_iff.mp hs
    refine ⟨rfl, ?_⟩
    rw [← List.append_eq_of_isPrefixOf?_eq_some hp, splitFirst?_eq_some hs, ← List.append_assoc,
      ← List.append_assoc]
    exact List.suffix_append _ _
  · cases h

theorem readDoctype_eq_ok (h : readDoctype cs = .ok (e, rest)) : e.Plain cs rest := by
  unfold readDoctype at h
  split at h
  · cases h
  · split at h
    · cases h
    · rename_i content after hs
      split at h
      · cases h
      · obtain ⟨rfl, rfl⟩ := Prod.mk.inj (Except.ok.inj h)
        exact ⟨rfl, (splitDoctype?_suffix hs).trans (List.drop_suffix 7 cs)⟩

theorem readBang_eq_ok (h : readBang cs = .ok (e, rest)) : e.Plain cs rest := by
  unfold readBang at h
  split at h
  · exact (readComment_eq_ok h).cons
  · exact (readCdata_eq_ok h).cons
  · split at h
    · exact readDoctype_eq_ok h
    · cases h
  · cases h

theorem readReference_eq_ok (h : readReference cs = .ok (e, rest)) : e.Plain cs rest := by
  unfold readReference at h
  rw [List.span_eq_takeWhile_dropWhile] at h
  split at h
  · rename_i content after hs
    obtain ⟨rfl, rfl⟩ := Prod.mk.inj (Except.ok.inj h)
    obtain ⟨-, hdrop⟩ := Prod.mk.inj hs
    exact ⟨rfl, (hdrop ▸ List.suffix_cons _ _ : _ <:+ _).trans (List.dropWhile_suffix _)⟩
  · cases h

theorem readMarkup_eq_ok (h : readMarkup cs = .ok (e, rest)) :
    ∃ w, e.SpelledAs w ∧ '<' :: cs = w ++ rest := by
  unfold readMarkup at h
  split at h
  · cases h
  · exact (readBang_eq_ok h).cons.spelledAs
  · exact readStop_eq_ok h
  · exact (readInstruction_eq_ok h).cons.spelledAs
  · exact readStart_eq_ok h

/-- By `readEvent` an event is read off the front of the text. -/
theorem readEvent_eq_ok {c : Char} (h : readEvent c cs = .ok (e, rest)) :
    ∃ w, e.SpelledAs w ∧ c :: cs = w ++ rest := by
  unfold readEvent at h
  split at h
  · rename_i hc
    exact hc ▸ readMarkup_eq_ok h
  · split at h
    · exact (readReference_eq_ok h).spelledAs
    · obtain ⟨rfl, rfl⟩ := Prod.mk.inj (Except.ok.inj h)
      exact Event.Plain.spelledAs ⟨rfl, List.dropWhile_suffix _⟩

theorem readEvent_length {c : Char} (h : readEvent c cs = .ok (e, rest)) :
    rest.length ≤ cs.length := by
  obtain ⟨w, hw, heq⟩ := readEvent_eq_ok h
  have hpos := List.length_pos_iff.mpr hw.ne_nil
  have hlen := congrArg List.length heq
  rw [List.length_cons, List.length_append] at hlen
  omega

/-! ## Outlines -/

/-- Inside the elements `opened`, the given events are read, one after the other and without a
fault; what is left is `rest`, inside the elements `opened'`. -/
inductive Reads : (opened : List (List Char)) → List Char → List Located →
    (opened' : List (List Char)) → (rest : List Char) → Prop
  | done {opened cs} : Reads opened cs [] opened cs
  | next {opened opened' opened'' c cs e rest rest' events}
      (read : readEvent c cs = .ok (e, rest)) (nest : nest opened e = .ok opened')
      (further : Reads opened' rest events opened'' rest') :
      Reads opened (c :: cs) (⟨e, rest⟩ :: events) opened'' rest'

variable {opened opened' opened'' : List (List Char)} {events events' : List Located}

/-- A `stop` tag closes the innermost element. -/
theorem nest_stop_eq_ok {name : List Char} (h : nest opened (.stop name) = .ok opened') :
    opened = name :: opened' := by
  cases opened with
  | nil => cases h
  | cons expected outer =>
    rw [nest] at h
    split at h
    · rename_i hname
      rw [hname, Except.ok.inj h]
    · cases h

theorem Reads.append {rest' : List Char} (h : Reads opened cs events opened' rest)
    (h' : Reads opened' rest events' opened'' rest') :
    Reads opened cs (events ++ events') opened'' rest' := by
  induction h with
  | done => exact h'
  | next read nest _ ih => exact .next read nest (ih h')

theorem Reads.outlineFrom (h : Reads opened cs events opened' []) {fuel : Nat}
    (hfuel : cs.length ≤ fuel) : outlineFrom fuel opened cs = ⟨events, none⟩ := by
  generalize hrest : ([] : List Char) = rest at h
  induction h generalizing fuel with
  | done => subst hrest; cases fuel <;> rfl
  | @next opened opened' _ c cs e rest _ events read nest _ ih =>
    cases fuel with
    | zero => simp at hfuel
    | succ fuel =>
      have hlen := readEvent_length read
      have hfuel' : rest.length ≤ fuel := by
        rw [List.length_cons] at hfuel
        omega
      simp only [Xml.outlineFrom, read, nest, bind, Except.bind, pure, Except.pure,
        ih hfuel' hrest]

/-- The events of `outlineFrom` are read one after the other, and to the end if there is no
fault. -/
theorem reads_of_outlineFrom {fuel : Nat} {fault : Option Fault} (hfuel : cs.length ≤ fuel)
    (h : outlineFrom fuel opened cs = ⟨events, fault⟩) :
    ∃ opened' rest, Reads opened cs events opened' rest ∧ (fault = none → rest = []) := by
  induction fuel generalizing opened cs events with
  | zero =>
    obtain rfl := List.length_eq_zero_iff.mp (Nat.le_zero.mp hfuel)
    obtain ⟨rfl, -⟩ := Outline.mk.inj h
    exact ⟨opened, [], .done, fun _ => rfl⟩
  | succ fuel ih =>
    cases cs with
    | nil =>
      obtain ⟨rfl, -⟩ := Outline.mk.inj h
      exact ⟨opened, [], .done, fun _ => rfl⟩
    | cons c cs =>
      rw [Xml.outlineFrom] at h
      rcases hread : readEvent c cs with fault' | ⟨e, rest⟩
      · simp only [hread, bind, Except.bind] at h
        obtain ⟨rfl, rfl⟩ := Outline.mk.inj h
        exact ⟨opened, c :: cs, .done, nofun⟩
      rcases hnest : nest opened e with fault' | opened'
      · simp only [hread, hnest, bind, Except.bind] at h
        obtain ⟨rfl, rfl⟩ := Outline.mk.inj h
        exact ⟨opened, c :: cs, .done, nofun⟩
      simp only [hread, hnest, bind, Except.bind, pure, Except.pure] at h
      obtain ⟨rfl, hfault⟩ := Outline.mk.inj h
      have hlen := readEvent_length hread
      have hfuel' : rest.length ≤ fuel := by
        rw [List.length_cons] at hfuel
        omega
      obtain ⟨opened'', rest', hreads, hrest⟩ := ih hfuel' (congrArg (Outline.mk _) hfault)
      exact ⟨opened'', rest', .next hread hnest hreads, hrest⟩

/-- A document without a fault is read by `outline` to its end. -/
theorem outline_eq_iff :
    outline cs = ⟨events, none⟩ ↔ ∃ opened, Reads [] cs events opened [] := by
  constructor
  · intro h
    obtain ⟨opened, rest, hreads, hrest⟩ := reads_of_outlineFrom (Nat.le_refl _) h
    exact ⟨opened, hrest rfl ▸ hreads⟩
  · rintro ⟨_, h⟩
    exact h.outlineFrom (Nat.le_refl _)

/-! ## Any reader -/

/-- Inside the elements `opened`, the texts of the given events follow each other without gaps, and
their tags match; what is left is `rest`, inside the elements `opened'`. -/
inductive Covers : (opened : List (List Char)) → List Char → List Located →
    (opened' : List (List Char)) → (rest : List Char) → Prop
  | done {opened : List (List Char)} {cs : List Char} : Covers opened cs [] opened cs
  | next {opened opened' opened'' : List (List Char)} {w rest rest' : List Char} {e : Event}
      {events : List Located} (spelled : e.SpelledAs w)
      (nest : nest opened e = .ok opened') (further : Covers opened' rest events opened'' rest') :
      Covers opened (w ++ rest) (⟨e, rest⟩ :: events) opened'' rest'

/-- The events of `o` are those of `text`, in the order of the text and each with what follows it;
without a fault, nothing is left of the text. -/
def Outline.Faithful (o : Outline) (text : List Char) : Prop :=
  ∃ opened rest, Covers [] text o.events opened rest ∧ (o.fault = none → rest = [])

theorem Reads.covers (h : Reads opened cs events opened' rest) :
    Covers opened cs events opened' rest := by
  induction h with
  | done => exact .done
  | next read nest _ ih =>
    obtain ⟨w, hw, hcs⟩ := readEvent_eq_ok read
    exact hcs ▸ .next hw nest ih

theorem outline_faithful (text : List Char) : (outline text).Faithful text := by
  obtain ⟨opened, rest, hreads, hrest⟩ :=
    reads_of_outlineFrom (Nat.le_refl text.length) (Eq.refl (outline text))
  exact ⟨opened, rest, hreads.covers, hrest⟩

end ApiModel.Xml
