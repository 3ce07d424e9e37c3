import ApiModel.Proofs.Offsets
import ApiModel.Proofs.Outline
import ApiModel.Schema.Base

/-!
# The root element in the text

The search for the root goes through the events of a document and keeps offsets.
Here these offsets are led back to the text: a document in which a root is found
divides into what stands before the root, its tags, its content, and what stands
after it.

A search has three phases. Before the root only events that aren't tags pass.
Inside the root the depth counts the open elements, so it falls to zero exactly
at the end tag of the root. After the root, again, only events that aren't tags
pass. There is one lemma for each phase.

All that is used of the reader is that its outlines are `Outline.Faithful`.
-/

namespace ApiModel.Schema

open Xml

/-! ## Elements in a text -/

/-- An element with `content`, as it stands in a document. -/
structure OpenElement where
  /-- What stands before the element. -/
  lead : List Char
  name : List Char
  attributes : List Char
  content : List Char
  /-- The spaces after the name in the end tag. -/
  space : List Char
  /-- What stands after the element. -/
  tail : List Char

namespace OpenElement

/-- The document up to the `>` of the start tag. -/
def opening (x : OpenElement) : List Char :=
  x.lead ++ '<' :: x.name ++ x.attributes

/-- The document after the start tag. -/
def body (x : OpenElement) : List Char :=
  x.content ++ endMark ++ x.name ++ x.space ++ '>' :: x.tail

/-- The document up to the end of the element. -/
def closed (x : OpenElement) : List Char :=
  x.opening ++ '>' :: x.content ++ endMark ++ x.name ++ x.space ++ ['>']

/-- The element `x` is the root of the document with the outline `o`: of all tags its start tag is
the first and its end tag is the last, and the tags between them match each other. -/
structure IsRoot (x : OpenElement) (o : Outline) (text : List Char) : Prop where
  chars : text = x.opening ++ '>' :: x.body
  space : ∀ c ∈ x.space, isSpace c = true
  events : ∃ before inside after,
    o = ⟨before ++ ⟨.start x.name x.attributes, x.body⟩ ::
      (inside ++ ⟨.stop x.name, x.tail⟩ :: after), none⟩ ∧
    (∀ e ∈ before ++ after, e.event.isTag = false) ∧
    (inside.map (·.event)).foldlM nest [] = .ok []

/-- What a search finds out about `x`. -/
def span (x : OpenElement) : RootSpan where
  name := x.name
  openEnd := byteLength x.opening
  selfClosing := false
  close := lastEndTag? 0 x.closed
  stop := byteLength x.closed
  missing := missingNamespaces x.attributes

theorem closed_append_tail (x : OpenElement) : x.closed ++ x.tail = x.opening ++ '>' :: x.body := by
  simp [closed, body]

/-- The offsets of a `span` are those of what follows each tag. -/
theorem span_eq (x : OpenElement) {base : List Char} (h : base = x.opening ++ '>' :: x.body) :
    x.span = {
      name := x.name
      openEnd := offsetOf base x.body - 1
      selfClosing := false
      close := lastEndTag? 0 (takeBytes (offsetOf base x.tail) base)
      stop := offsetOf base x.tail
      missing := missingNamespaces x.attributes } := by
  have hopen : offsetOf base x.body = byteLength x.opening + 1 := by
    rw [h, List.append_cons, offsetOf_append, byteLength_append]
    rfl
  have hbase : base = x.closed ++ x.tail := h.trans x.closed_append_tail.symm
  have hstop : offsetOf base x.tail = byteLength x.closed := by rw [hbase, offsetOf_append]
  have hcut : takeBytes (byteLength x.closed) base = x.closed := by rw [hbase, takeBytes_append]
  rw [hopen, hstop, hcut]
  rfl

end OpenElement

/-- An element that consists of one tag, as it stands in a document. -/
structure EmptyElement where
  lead : List Char
  name : List Char
  attributes : List Char
  tail : List Char

namespace EmptyElement

/-- The document up to the `/>` of the tag. -/
def opening (x : EmptyElement) : List Char :=
  x.lead ++ '<' :: x.name ++ x.attributes

/-- The element `x` is the root of the document with the outline `o`: its tag is the only one. -/
structure IsRoot (x : EmptyElement) (o : Outline) (text : List Char) : Prop where
  chars : text = x.opening ++ '/' :: '>' :: x.tail
  events : ∃ before after,
    o = ⟨before ++ ⟨.empty x.name x.attributes, x.tail⟩ :: after, none⟩ ∧
    ∀ e ∈ before ++ after, e.event.isTag = false

/-- What a search finds out about `x`. -/
def span (x : EmptyElement) : RootSpan where
  name := x.name
  openEnd := byteLength x.opening
  selfClosing := true
  close := none
  stop := byteLength (x.opening ++ ['/', '>'])
  missing := missingNamespaces x.attributes

theorem span_eq (x : EmptyElement) {base : List Char} (h : base = x.opening ++ '/' :: '>' :: x.tail) :
    x.span = {
      name := x.name
      openEnd := offsetOf base x.tail - 2
      selfClosing := true
      close := none
      stop := offsetOf base x.tail
      missing := missingNamespaces x.attributes } := by
  have hbase : base = x.opening ++ ['/', '>'] ++ x.tail := by rw [h, List.append_assoc]; rfl
  have hstop : offsetOf base x.tail = byteLength x.opening + 2 := by
    rw [hbase, offsetOf_append, byteLength_append]
    rfl
  rw [hstop, span, byteLength_append]
  rfl

end EmptyElement

/-! ## Steps of a search -/

namespace RootSearch

variable {base text cs rest done : List Char} {s s' : RootSearch} {r root : RootSpan} {x : Located}
  {events : List Located} {opened opened' : List (List Char)}

theorem step_plain (h : x.event.isTag = false) : step base text s x = .ok s := by
  obtain ⟨e, rest⟩ := x
  cases e with
  | start | empty | stop => cases h
  | _ => rfl

/-- Once there is a `root` and it is closed, no tag may follow. -/
theorem step_closed (hd : s.depth = 0) (hr : s.root.isSome = true)
    (h : step base text s x = .ok s') : x.event.isTag = false ∧ s' = s := by
  obtain ⟨e, rest⟩ := x
  cases e with
  | start | empty => simp [step, enterRoot, hd, hr, bind, Except.bind] at h
  | stop => simp [step, hd] at h
  | _ => exact ⟨rfl, (Except.ok.inj h).symm⟩

theorem foldlM_cons_ok {f : RootSearch → Located → Except BaseFault RootSearch}
    (h : (x :: events).foldlM f s = .ok s') : ∃ s₁, f s x = .ok s₁ ∧ events.foldlM f s₁ = .ok s' := by
  rw [List.foldlM_cons] at h
  rcases hf : f s x with fault | s₁
  · rw [hf] at h
    cases h
  · rw [hf] at h
    exact ⟨s₁, rfl, h⟩

/-! ## After the root -/

theorem run_after (hd : s.depth = 0) (hr : s.root.isSome = true)
    (h : events.foldlM (step base text) s = .ok s') :
    s' = s ∧ ∀ e ∈ events, e.event.isTag = false := by
  induction events with
  | nil => exact ⟨(Except.ok.inj h).symm, by simp⟩
  | cons x events ih =>
    obtain ⟨s₁, hx, hrun⟩ := foldlM_cons_ok h
    obtain ⟨hplain, rfl⟩ := step_closed hd hr hx
    obtain ⟨hs, hevents⟩ := ih hrun
    exact ⟨hs, List.forall_mem_cons.mpr ⟨hplain, hevents⟩⟩

/-- Events that aren't tags change nothing, see `Event.isTag`. -/
theorem run_plain (h : ∀ e ∈ events, e.event.isTag = false) :
    events.foldlM (step base text) s = .ok s := by
  induction events with
  | nil => rfl
  | cons x events ih =>
    obtain ⟨hx, hevents⟩ := List.forall_mem_cons.mp h
    rw [List.foldlM_cons, step_plain hx]
    exact ih hevents

/-! ## Inside the root -/

/-- How a search ends that goes on at `cs` inside the element `name` and, in turn, `inner`. -/
structure Closing (base text cs : List Char) (inner : List (List Char)) (name : List Char)
    (root : RootSpan) (events : List Located) (s : RootSearch)
    (content space tail : List Char) (inside after : List Located) : Prop where
  chars : cs = content ++ endMark ++ name ++ space ++ '>' :: tail
  space : ∀ c ∈ space, isSpace c = true
  events : events = inside ++ ⟨.stop name, tail⟩ :: after
  inside : (inside.map (·.event)).foldlM nest inner = .ok []
  after : ∀ e ∈ after, e.event.isTag = false
  search : s = ⟨0, some { root with
    close := lastEndTag? 0 (takeBytes (offsetOf text tail) base)
    stop := offsetOf text tail }⟩

theorem run_inside {inner : List (List Char)} {name : List Char}
    (hcovers : Covers (inner ++ [name]) cs events opened' [])
    (hrun : events.foldlM (step base text) ⟨inner.length + 1, some root⟩ = .ok s')
    (hdepth : s'.depth = 0) :
    ∃ content space tail inside after,
      Closing base text cs inner name root events s' content space tail inside after := by
  generalize hopened : inner ++ [name] = opened at hcovers
  generalize hrest : ([] : List Char) = rest at hcovers
  induction hcovers generalizing inner with
  | done =>
    obtain rfl := Except.ok.inj hrun
    cases hdepth
  | @next opened opened' opened'' w rest rest' e events hw hnest _ ih =>
    obtain ⟨s₁, hstep, hrun⟩ := foldlM_cons_ok hrun
    -- An event that doesn't close the root is put in front of what comes after it.
    have hmore : ∀ inner', nest inner e = .ok inner' → inner' ++ [name] = opened' →
        s₁ = ⟨inner'.length + 1, some root⟩ → ∃ content space tail inside after,
          Closing base text (w ++ rest) inner name root (⟨e, rest⟩ :: events) s' content space tail
            inside after := by
      rintro inner' hinner hopened' rfl
      obtain ⟨content, space, tail, inside, after, hc⟩ := ih hrun hopened' hrest
      refine ⟨w ++ content, space, tail, ⟨e, rest⟩ :: inside, after, ?_, hc.space, ?_, ?_, hc.after,
        hc.search⟩
      · rw [hc.chars]
        simp
      · rw [hc.events]
        rfl
      · rw [List.map_cons, List.foldlM_cons, hinner]
        exact hc.inside
    subst hopened
    cases e with
    | start n a =>
      obtain rfl := Except.ok.inj hnest
      exact hmore (n :: inner) rfl rfl (Except.ok.inj hstep).symm
    | stop n =>
      have hopened := nest_stop_eq_ok hnest
      cases inner with
      | nil =>
        obtain ⟨space, hspace, rfl⟩ := hw
        obtain ⟨rfl, -⟩ := List.cons.inj hopened
        obtain rfl := Except.ok.inj hstep
        obtain ⟨rfl, hafter⟩ := run_after rfl rfl hrun
        exact ⟨[], space, rest, [], events, by simp [endMark], hspace, rfl, rfl, hafter,
          rfl⟩
      | cons i inner =>
        obtain ⟨rfl, hinner⟩ := List.cons.inj hopened
        exact hmore inner (by rw [nest, if_pos rfl]) hinner (Except.ok.inj hstep).symm
    | _ =>
      obtain rfl := Except.ok.inj hnest
      exact hmore inner rfl rfl (Except.ok.inj hstep).symm

/-- Inside the root, the `depth` counts the open elements, as `nest` does. -/
theorem run_nested {root : Option RootSpan} {inner inner' : List (List Char)}
    (h : (events.map (·.event)).foldlM nest inner = .ok inner') :
    events.foldlM (step base text) ⟨inner.length + 1, root⟩ = .ok ⟨inner'.length + 1, root⟩ := by
  induction events generalizing inner with
  | nil =>
    obtain rfl := Except.ok.inj h
    rfl
  | cons x events ih =>
    obtain ⟨e, rest⟩ := x
    rw [List.map_cons, List.foldlM_cons] at h
    rcases hnest : nest inner e with fault | inner₁ <;> rw [hnest] at h
    · cases h
    have hstep : step base text ⟨inner.length + 1, root⟩ ⟨e, rest⟩ =
        .ok ⟨inner₁.length + 1, root⟩ := by
      cases e with
      | start n a =>
        obtain rfl := Except.ok.inj hnest
        rfl
      | stop n =>
        obtain rfl := nest_stop_eq_ok hnest
        rfl
      | _ =>
        obtain rfl := Except.ok.inj hnest
        rfl
    rw [List.foldlM_cons, hstep]
    exact ih h

/-! ## Before the root -/

/-- How a search meets its first tag `x`: the events before it aren't tags, and it goes on with
`events'` after it. -/
structure Entering (base text cs : List Char) (events : List Located) (s' : RootSearch)
    (opened' : List (List Char)) (lead : List Char) (before : List Located) (x : Located)
    (events' : List Located) : Prop where
  events : events = before ++ x :: events'
  before : ∀ e ∈ before, e.event.isTag = false
  isTag : x.event.isTag = true
  chars : ∃ w, x.event.SpelledAs w ∧ cs = lead ++ w ++ x.rest
  covers : ∃ opened, nest [] x.event = .ok opened ∧ Covers opened x.rest events' opened' []
  search : ∃ s, step base text {} x = .ok s ∧ events'.foldlM (step base text) s = .ok s'

theorem run_before (hcovers : Covers [] cs events opened' [])
    (hrun : events.foldlM (step base text) {} = .ok s') (hroot : s'.root = some r) :
    ∃ lead before x events', Entering base text cs events s' opened' lead before x events' := by
  generalize hopened : ([] : List (List Char)) = opened at hcovers
  generalize hrest : ([] : List Char) = rest at hcovers
  induction hcovers with
  | done =>
    obtain rfl := Except.ok.inj hrun
    cases hroot
  | @next opened opened' opened'' w rest rest' e events hw hnest further ih =>
    subst hopened hrest
    obtain ⟨s₁, hstep, hrun⟩ := foldlM_cons_ok hrun
    rcases htag : e.isTag with _ | _
    · have hnest' : nest [] e = .ok [] := by
        cases e with
        | start | empty | stop => cases htag
        | _ => rfl
      obtain rfl := Except.ok.inj (hnest.symm.trans hnest')
      obtain rfl := Except.ok.inj (hstep.symm.trans (step_plain htag))
      obtain ⟨lead, before, x, events', h⟩ := ih hrun rfl rfl
      obtain ⟨w', hw', hrest⟩ := h.chars
      refine ⟨w ++ lead, ⟨e, rest⟩ :: before, x, events', ?_, ?_, h.isTag, ⟨w', hw', ?_⟩,
        h.covers, h.search⟩
      · rw [h.events]
        rfl
      · exact List.forall_mem_cons.mpr ⟨htag, h.before⟩
      · rw [hrest]
        simp
    · exact ⟨[], [], ⟨e, rest⟩, events, rfl, by simp, htag, ⟨w, hw, rfl⟩, ⟨opened', hnest, further⟩,
        ⟨s₁, hstep, hrun⟩⟩

/-! ## The whole search -/

theorem finish_eq_ok (h : s.finish = .ok r) : s.root = some r ∧ s.depth = 0 := by
  unfold finish at h
  split at h
  · cases h
  · rename_i root hroot
    split at h
    · cases h
    · rename_i hclosed
      obtain rfl := Except.ok.inj h
      simp only [Bool.or_eq_true, decide_eq_true_eq, not_or] at hclosed
      exact ⟨hroot, by omega⟩

end RootSearch

open RootSearch

variable {read : List Char → Outline} {base : List Char} {r : RootSpan}

theorem locateRootBy_eq_ok (h : locateRootBy read base = .ok r) :
    ∃ events s, read (readText base) = ⟨events, none⟩ ∧
      events.foldlM (step base (readText base)) {} = .ok s ∧ s.finish = .ok r := by
  simp only [locateRootBy] at h
  rcases ho : read (readText base) with ⟨events, fault⟩
  rw [ho] at h
  rcases hrun : events.foldlM (step base (readText base)) {} with e | s
  · simp [hrun, Except.mapError, bind, Except.bind] at h
  rcases fault with _ | fault
  · rcases hs : s.finish with e | root
    · simp [hrun, hs, Except.mapError, bind, Except.bind] at h
    · simp only [hrun, hs, Except.mapError, bind, Except.bind] at h
      obtain rfl := Except.ok.inj h
      exact ⟨events, s, rfl, hrun, hs⟩
  · simp [hrun, Except.mapError, bind, Except.bind] at h

/-- A search that has left its root `r` has passed the root element of the document. -/
theorem exists_root_of_run {events : List Located} {s' : RootSearch}
    (hfaithful : Outline.Faithful ⟨events, none⟩ base)
    (hrun : events.foldlM (step base base) {} = .ok s') (hroot : s'.root = some r)
    (hdepth : s'.depth = 0) :
    (∃ x : OpenElement, x.IsRoot ⟨events, none⟩ base ∧ r = x.span) ∨
      ∃ x : EmptyElement, x.IsRoot ⟨events, none⟩ base ∧ r = x.span := by
  obtain ⟨opened', rest', hcovers, hrest⟩ := hfaithful
  obtain rfl := hrest rfl
  change Covers [] base events opened' [] at hcovers
  obtain ⟨lead, before, ⟨e, rest⟩, events', henter⟩ := run_before hcovers hrun hroot
  obtain ⟨w, hw, hbase⟩ := henter.chars
  obtain ⟨opened, hnest, hcovers⟩ := henter.covers
  obtain ⟨s, hstep, hrun⟩ := henter.search
  cases e with
  | start name attributes =>
    left
    obtain rfl := Except.ok.inj hnest
    obtain rfl := Except.ok.inj hstep
    obtain ⟨content, space, tail, inside, after, hclose⟩ :=
      run_inside (show Covers ([] ++ [name]) rest events' opened' [] from hcovers) hrun hdepth
    let x : OpenElement := ⟨lead, name, attributes, content, space, tail⟩
    obtain rfl : rest = x.body := hclose.chars
    have hchars : base = x.opening ++ '>' :: x.body := by
      rw [hbase, hw]
      simp [x, OpenElement.opening]
    refine ⟨x, ⟨hchars, hclose.space, before, inside, after, ?_, ?_, hclose.inside⟩, ?_⟩
    · rw [henter.events, hclose.events]
    · exact List.forall_mem_append.mpr ⟨henter.before, hclose.after⟩
    · rw [hclose.search] at hroot
      rw [x.span_eq hchars]
      exact (Option.some.inj hroot).symm
  | empty name attributes =>
    right
    obtain rfl := Except.ok.inj hstep
    obtain ⟨rfl, hafter⟩ := run_after rfl rfl hrun
    let x : EmptyElement := ⟨lead, name, attributes, rest⟩
    have hchars : base = x.opening ++ '/' :: '>' :: x.tail := by
      rw [hbase, hw]
      simp [x, EmptyElement.opening]
    refine ⟨x, ⟨hchars, before, events', ?_, ?_⟩, ?_⟩
    · rw [henter.events]
    · exact List.forall_mem_append.mpr ⟨henter.before, hafter⟩
    · rw [x.span_eq hchars]
      exact (Option.some.inj hroot).symm
  | stop => cases hnest
  | _ => cases henter.isTag

/-- A root that `locateRootBy` finds is the root element of the document. -/
theorem exists_root_of_locateRootBy (hread : ∀ text, (read text).Faithful text)
    (hbom : readText base = base) (h : locateRootBy read base = .ok r) :
    (∃ x : OpenElement, x.IsRoot (read base) base ∧ r = x.span) ∨
      ∃ x : EmptyElement, x.IsRoot (read base) base ∧ r = x.span := by
  obtain ⟨events, s, houtline, hrun, hfinish⟩ := locateRootBy_eq_ok h
  rw [hbom] at houtline hrun
  obtain ⟨hroot, hdepth⟩ := finish_eq_ok hfinish
  rw [houtline]
  exact exists_root_of_run (houtline ▸ hread base) hrun hroot hdepth

/-- The root element of a document is found by `locateRootBy`. -/
theorem OpenElement.IsRoot.locateRootBy_eq {x : OpenElement} (h : x.IsRoot (read base) base)
    (hbom : readText base = base) : locateRootBy read base = .ok x.span := by
  obtain ⟨before, inside, after, houtline, hplain, hnested⟩ := h.events
  obtain ⟨hbefore, hafter⟩ := List.forall_mem_append.mp hplain
  have hclose : x.span.close ≠ none := by
    rw [Ne, span, lastEndTag?_eq_none, not_not]
    exact ⟨x.opening ++ '>' :: x.content, x.name ++ x.space ++ ['>'], by simp [closed]⟩
  have hinside : ∀ root, inside.foldlM (step base base) ⟨1, root⟩ = .ok ⟨1, root⟩ := fun root =>
    run_nested hnested
  have hsearch : (before ++ ⟨.start x.name x.attributes, x.body⟩ ::
      (inside ++ ⟨.stop x.name, x.tail⟩ :: after)).foldlM (step base base) {} =
        .ok ⟨0, some x.span⟩ := by
    rw [List.foldlM_append, run_plain hbefore, x.span_eq h.chars]
    simp only [bind, Except.bind, List.foldlM_cons, List.foldlM_append, step, enterRoot, hinside,
      Option.isSome_none, Bool.false_eq_true, if_false, if_true, pure, Except.pure, Option.map_some]
    exact run_plain hafter
  simp only [locateRootBy, hbom, houtline, hsearch, Except.mapError, bind, Except.bind, finish]
  rw [if_neg]
  simp [hclose]

theorem EmptyElement.IsRoot.locateRootBy_eq {x : EmptyElement} (h : x.IsRoot (read base) base)
    (hbom : readText base = base) : locateRootBy read base = .ok x.span := by
  obtain ⟨before, after, houtline, hplain⟩ := h.events
  obtain ⟨hbefore, hafter⟩ := List.forall_mem_append.mp hplain
  have hsearch : (before ++ ⟨.empty x.name x.attributes, x.tail⟩ :: after).foldlM
      (step base base) {} = .ok ⟨0, some x.span⟩ := by
    rw [List.foldlM_append, run_plain hbefore, x.span_eq h.chars]
    simp only [bind, Except.bind, List.foldlM_cons, step, enterRoot, Option.isSome_none,
      Bool.false_eq_true, if_false, if_true, pure, Except.pure]
    exact run_plain hafter
  simp only [locateRootBy, hbom, houtline, hsearch, Except.mapError, bind, Except.bind, finish]
  rw [if_neg]
  simp [span]

end ApiModel.Schema
