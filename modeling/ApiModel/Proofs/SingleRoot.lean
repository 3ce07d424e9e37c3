import ApiModel.Proofs.BaseDocument

/-!
# Documents with a single root

A document can be used if one element stands at its top and everything that is
opened is closed. Whether it is like that can be told from its events alone, by
counting tags: an element begins at the top if as many elements have been closed
before it as have been opened.

The search counts depth instead, and it remembers whether it has met a root. Both
keep step with the events. The depth is the number of elements that the reader
has open, and there is a root exactly if some element has begun at the top. The
search stops early only where a second one begins: an end tag without an
element to close never gets past the reader.

`root_located_by` says so of any reader whose outlines are `Outline.Faithful`,
and `root_located` of `outline`.
-/

namespace ApiModel

namespace Xml

/-! ## Elements at the top -/

def Event.isStart : Event → Bool
  | .start _ _ => true
  | _ => false

def Event.isStop : Event → Bool
  | .stop _ => true
  | _ => false

/-- The event begins an element, with content (`start`) or without (`empty`). -/
def Event.startsElement : Event → Bool
  | .start _ _ | .empty _ _ => true
  | _ => false

/-- As many elements have been closed by `events` as have been opened. -/
def AllClosed (events : List Located) : Prop :=
  events.countP (·.event.isStart) = events.countP (·.event.isStop)

/-- The event at position `i` begins an element while no other is open. -/
def StartsAtTop (events : List Located) (i : Nat) : Prop :=
  AllClosed (events.take i) ∧ ∃ x, events[i]? = some x ∧ x.event.startsElement = true

/-- One element begins at the top, and every element is closed. -/
structure SingleRooted (events : List Located) : Prop where
  root : ∃! i, StartsAtTop events i
  closed : AllClosed events

section Top

variable {done events : List Located} {x : Located} {i : Nat}

theorem StartsAtTop.lt (h : StartsAtTop done i) : i < done.length := by
  obtain ⟨-, x, hx, -⟩ := h
  exact (List.getElem?_eq_some_iff.mp hx).1

/-- What comes after `done` doesn't matter. -/
theorem startsAtTop_append (h : i < done.length) :
    StartsAtTop (done ++ events) i ↔ StartsAtTop done i := by
  rw [StartsAtTop, StartsAtTop, List.take_append_of_le_length (Nat.le_of_lt h),
    List.getElem?_append_left h]

theorem StartsAtTop.append (h : StartsAtTop done i) (events : List Located) :
    StartsAtTop (done ++ events) i :=
  (startsAtTop_append h.lt).mpr h

theorem startsAtTop_concat : StartsAtTop (done ++ [x]) i ↔
    StartsAtTop done i ∨ (i = done.length ∧ AllClosed done ∧ x.event.startsElement = true) := by
  rcases Nat.lt_trichotomy i done.length with hi | rfl | hi
  · rw [startsAtTop_append hi]
    simp [Nat.ne_of_lt hi]
  · have hnot : ¬StartsAtTop done done.length := fun h => absurd h.lt (Nat.lt_irrefl _)
    rw [StartsAtTop, List.take_left, List.getElem?_concat_length]
    simp [hnot]
  · have hnot : ¬StartsAtTop done i := fun h => absurd h.lt (by omega)
    have hnot' : ¬StartsAtTop (done ++ [x]) i := fun h => by
      have hlt := h.lt
      rw [List.length_append, List.length_singleton] at hlt
      omega
    simp [hnot, hnot', Nat.ne_of_gt hi]

end Top

/-- By `nest`, the elements that the reader has open are those that have been opened and not
closed. -/
theorem length_nest {opened opened' : List (List Char)} {e : Event}
    (h : nest opened e = .ok opened') :
    e.isStart.toNat + opened.length = e.isStop.toNat + opened'.length := by
  cases e with
  | start n a =>
    obtain rfl := Except.ok.inj h
    simp [Event.isStart, Event.isStop, Nat.add_comm]
  | stop n =>
    obtain rfl := nest_stop_eq_ok h
    simp [Event.isStart, Event.isStop, Nat.add_comm]
  | _ =>
    obtain rfl := Except.ok.inj h
    rfl

end Xml

namespace Schema

open Xml

namespace RootSearch

variable {base text cs rest : List Char} {s : RootSearch} {x : Located}
  {done events : List Located} {opened opened' : List (List Char)}

/-! ## One step -/

/-- The first element at the top becomes the `root`. -/
theorem step_first (hdepth : s.depth = 0) (hroot : s.root = none)
    (hx : x.event.startsElement = true) (hnest : nest [] x.event = .ok opened') :
    ∃ s', step base text s x = .ok s' ∧ s'.root.isSome = true ∧ s'.depth = opened'.length := by
  obtain ⟨e, rest⟩ := x
  cases e with
  | start n a | empty n a =>
    obtain rfl := Except.ok.inj hnest
    simp [step, enterRoot, hdepth, hroot, bind, Except.bind, pure, Except.pure]
  | _ => cases hx

/-- The second one is a fault, `multipleRoots`. -/
theorem step_second (hdepth : s.depth = 0) (hroot : s.root.isSome = true)
    (hx : x.event.startsElement = true) : step base text s x = .error .multipleRoots := by
  obtain ⟨e, rest⟩ := x
  cases e with
  | start | empty => simp [step, enterRoot, hdepth, hroot, bind, Except.bind]
  | _ => cases hx

/-- Elsewhere, only the `depth` changes, and it stays that of the reader. -/
theorem step_elsewhere (hdepth : s.depth = opened.length)
    (hnest : nest opened x.event = .ok opened')
    (hx : opened = [] → x.event.startsElement = false) :
    ∃ s', step base text s x = .ok s' ∧ s'.root.isSome = s.root.isSome ∧
      s'.depth = opened'.length := by
  obtain ⟨e, rest⟩ := x
  cases e with
  | start n a | empty n a =>
    obtain rfl := Except.ok.inj hnest
    cases opened with
    | nil => cases hx rfl
    | cons => simp [step, hdepth]
  | stop n =>
    obtain rfl := nest_stop_eq_ok hnest
    cases opened' with
    | nil => simp [step, hdepth]
    | cons => simp [step, hdepth]
  | _ =>
    obtain rfl := Except.ok.inj hnest
    exact ⟨s, rfl, rfl, hdepth⟩

/-! ## A whole search -/

/-- After the events `done`, with the elements `opened` open, a search keeps step: its depth is
the number of these elements, and it has a root exactly if an element has begun at the top. -/
structure InStep (done : List Located) (opened : List (List Char)) (s : RootSearch) : Prop where
  depth : s.depth = opened.length
  count : done.countP (·.event.isStart) = done.countP (·.event.isStop) + opened.length
  found : s.root.isSome = true ↔ ∃ i, StartsAtTop done i
  unique : ∀ i j, StartsAtTop done i → StartsAtTop done j → i = j

namespace InStep

theorem initial : InStep [] [] {} := by
  have h : ∀ i, ¬StartsAtTop [] i := fun i hi => absurd hi.lt (Nat.not_lt_zero i)
  exact ⟨rfl, rfl, by simp [h], fun i _ hi => absurd hi (h i)⟩

theorem allClosed_iff (h : InStep done opened s) : AllClosed done ↔ opened = [] := by
  rw [AllClosed, h.count, ← List.length_eq_zero_iff]
  omega

theorem not_startsAtTop (h : InStep done opened s) (hroot : s.root = none) (i : Nat) :
    ¬StartsAtTop done i := by
  intro hi
  have hsome := h.found.mpr ⟨i, hi⟩
  rw [hroot] at hsome
  cases hsome

theorem count_concat (h : InStep done opened s) (hnest : nest opened x.event = .ok opened') :
    (done ++ [x]).countP (·.event.isStart) =
      (done ++ [x]).countP (·.event.isStop) + opened'.length := by
  have hcount := h.count
  have hlength := length_nest hnest
  simp only [List.countP_append, List.countP_singleton]
  rcases hstart : x.event.isStart <;> rcases hstop : x.event.isStop <;>
    simp only [hstart, hstop, Bool.toNat_true, Bool.toNat_false] at hlength ⊢ <;> simp <;> omega

/-- A `RootSearch.step` goes on, unless a second element begins at the top. -/
theorem step (h : InStep done opened s) (hnest : nest opened x.event = .ok opened') :
    (∃ s', step base text s x = .ok s' ∧ InStep (done ++ [x]) opened' s') ∨
      (step base text s x = .error .multipleRoots ∧
        ∃ i j, i ≠ j ∧ StartsAtTop (done ++ [x]) i ∧ StartsAtTop (done ++ [x]) j) := by
  by_cases hx : opened = [] ∧ x.event.startsElement = true
  · obtain ⟨rfl, hx⟩ := hx
    have htop : ∀ i, StartsAtTop (done ++ [x]) i ↔ StartsAtTop done i ∨ i = done.length := by
      simp [startsAtTop_concat, h.allClosed_iff, hx]
    rcases hroot : s.root with _ | root
    · -- This is the first one.
      have hnone := h.not_startsAtTop hroot
      obtain ⟨s', hstep, hroot', hdepth'⟩ := step_first h.depth hroot hx hnest
      refine .inl ⟨s', hstep, hdepth', h.count_concat hnest, ?_, fun i j hi hj => ?_⟩
      · exact iff_of_true hroot' ⟨done.length, (htop _).mpr (.inr rfl)⟩
      · rw [((htop i).mp hi).resolve_left (hnone i), ((htop j).mp hj).resolve_left (hnone j)]
    · have hroot : s.root.isSome = true := by rw [hroot]; rfl
      obtain ⟨i, hi⟩ := h.found.mp hroot
      exact .inr ⟨step_second h.depth hroot hx, i, done.length, Nat.ne_of_lt hi.lt,
        (htop i).mpr (.inl hi), (htop _).mpr (.inr rfl)⟩
  · have htop : ∀ i, StartsAtTop (done ++ [x]) i ↔ StartsAtTop done i := fun i => by
      rw [startsAtTop_concat, h.allClosed_iff]
      simp [hx]
    obtain ⟨s', hstep, hroot', hdepth'⟩ := step_elsewhere h.depth hnest
      fun hopened => Bool.eq_false_iff.mpr fun he => hx ⟨hopened, he⟩
    refine .inl ⟨s', hstep, hdepth', h.count_concat hnest, ?_, fun i j hi hj => ?_⟩
    · simp only [hroot', htop, h.found]
    · exact h.unique i j ((htop i).mp hi) ((htop j).mp hj)

/-- A search goes on as long as the text is read, `InStep` with the reader, unless a second element
begins at the top. -/
theorem run (h : InStep done opened s) (hcovers : Covers opened cs events opened' rest) :
    (∃ s', events.foldlM (RootSearch.step base text) s = .ok s' ∧
        InStep (done ++ events) opened' s') ∨
      (events.foldlM (RootSearch.step base text) s = .error .multipleRoots ∧
        ∃ i j, i ≠ j ∧ StartsAtTop (done ++ events) i ∧ StartsAtTop (done ++ events) j) := by
  induction hcovers generalizing done s with
  | done => exact .inl ⟨s, rfl, by rwa [List.append_nil]⟩
  | @next opened opened' opened'' w rest rest' e events _ hnest _ ih =>
    rw [List.foldlM_cons, List.append_cons]
    rcases h.step (x := ⟨e, rest⟩) hnest with ⟨s₁, hstep, h₁⟩ | ⟨hstep, i, j, hne, hi, hj⟩
    · rw [hstep]
      exact ih h₁
    · rw [hstep]
      exact .inr ⟨rfl, i, j, hne, hi.append _, hj.append _⟩

end InStep

end RootSearch

open RootSearch

variable {read : List Char → Outline} {base : List Char} {events : List Located}

/-! ## Documents that can be used -/

/-- The search ends in the middle only by `multipleRoots`. -/
theorem run_faithful {o : Outline} {text : List Char} (h : o.Faithful text) (base : List Char) :
    (∃ opened s, o.events.foldlM (step base text) {} = .ok s ∧ InStep o.events opened s) ∨
      (o.events.foldlM (step base text) {} = .error .multipleRoots ∧
        ∃ i j, i ≠ j ∧ StartsAtTop o.events i ∧ StartsAtTop o.events j) := by
  obtain ⟨opened, rest, hcovers, -⟩ := h
  exact (InStep.initial.run hcovers).imp_left fun ⟨s, hrun, h⟩ => ⟨opened, s, hrun, h⟩

theorem locateRootBy_of_stopped {fault : BaseFault}
    (h : (read (readText base)).events.foldlM (step base (readText base)) {} = .error fault) :
    locateRootBy read base = .error (.invalid fault) := by
  rw [locateRootBy, h]
  rfl

theorem locateRootBy_of_finished {s : RootSearch}
    (h : (read (readText base)).events.foldlM (step base (readText base)) {} = .ok s) :
    locateRootBy read base = (read (readText base)).fault.elim (s.finish.mapError .invalid)
      (fun fault => .error (.malformed fault)) := by
  rw [locateRootBy, h]
  cases (read (readText base)).fault <;> rfl

theorem finish_ne_unbalancedEnd (s : RootSearch) : s.finish ≠ .error .unbalancedEnd := by
  rw [finish]
  split
  · simp
  · split <;> simp

theorem locateRootBy_ne_unbalancedEnd (hread : ∀ text, (read text).Faithful text)
    (base : List Char) : locateRootBy read base ≠ .error (.invalid .unbalancedEnd) := by
  rcases run_faithful (hread (readText base)) base with ⟨opened, s, hrun, -⟩ | ⟨hrun, -⟩
  · rw [locateRootBy_of_finished hrun]
    rcases (read (readText base)).fault with _ | fault
    · rcases hfinish : s.finish with fault | root
      · rintro ⟨⟩
        exact finish_ne_unbalancedEnd s hfinish
      · nofun
    · nofun
  · rw [locateRootBy_of_stopped hrun]
    nofun

/-- What is wrong with a document that isn't `SingleRooted`. -/
inductive Misrooted (events : List Located) : BaseFault → Prop
  | noRoot (none : ∀ i, ¬StartsAtTop events i) : Misrooted events .noRoot
  | multipleRoots {i j : Nat} (ne : i ≠ j) (first : StartsAtTop events i)
      (second : StartsAtTop events j) : Misrooted events .multipleRoots
  | unclosedRoot {name : List Char} (root : ∃! i, StartsAtTop events i)
      (unclosed : ¬AllClosed events) : Misrooted events (.unclosedRoot name)

theorem Misrooted.not_singleRooted {fault : BaseFault} (h : Misrooted events fault) :
    ¬SingleRooted events := by
  rintro ⟨⟨i, hi, hunique⟩, hclosed⟩
  cases h with
  | noRoot none => exact none i hi
  | multipleRoots ne first second => exact ne ((hunique _ first).trans (hunique _ second).symm)
  | unclosedRoot _ unclosed => exact unclosed hclosed

/-- Either `locateRootBy` finds the root of a document, or the document is `Misrooted`. -/
theorem locateRootBy_cases (hread : ∀ text, (read text).Faithful text)
    (hbom : readText base = base) (h : read base = ⟨events, none⟩) :
    (SingleRooted events ∧ ∃ r, locateRootBy read base = .ok r) ∨
      ∃ fault, Misrooted events fault ∧ locateRootBy read base = .error (.invalid fault) := by
  have hfaithful := hread base
  have hfinished := @locateRootBy_of_finished read base
  have hstopped := @locateRootBy_of_stopped read base
  rw [hbom, h] at hfinished hstopped
  rw [h] at hfaithful
  rcases run_faithful hfaithful base with ⟨opened, s, hrun, ht⟩ | ⟨hrun, i, j, hne, hi, hj⟩
  · rw [hfinished hrun]
    rcases hroot : s.root with _ | root
    · exact .inr ⟨.noRoot, .noRoot (ht.not_startsAtTop hroot),
        by simp [finish, hroot, Except.mapError]⟩
    obtain ⟨i, hi⟩ := ht.found.mp (by rw [hroot]; rfl)
    have hunique : ∃! i, StartsAtTop events i := ⟨i, hi, fun j hj => ht.unique j i hj hi⟩
    by_cases hdepth : s.depth = 0
    · have hclosed : AllClosed events :=
        ht.allClosed_iff.mpr (List.length_eq_zero_iff.mp (ht.depth.symm.trans hdepth))
      refine .inl ⟨⟨hunique, hclosed⟩, ?_⟩
      rw [← hfinished hrun]
      rcases exists_root_of_run hfaithful hrun hroot hdepth with ⟨x, hx, -⟩ | ⟨x, hx, -⟩
      · exact ⟨_, OpenElement.IsRoot.locateRootBy_eq (h ▸ hx) hbom⟩
      · exact ⟨_, EmptyElement.IsRoot.locateRootBy_eq (h ▸ hx) hbom⟩
    · refine .inr ⟨.unclosedRoot root.name, .unclosedRoot hunique fun hclosed => hdepth ?_, ?_⟩
      · rw [ht.depth, ht.allClosed_iff.mp hclosed]
        rfl
      · simp [finish, hroot, Nat.pos_of_ne_zero hdepth, Except.mapError]
  · exact .inr ⟨_, .multipleRoots hne hi hj, hstopped hrun⟩

/-! ## The offsets of a root -/

def OpenElement.endTag (x : OpenElement) : List Char :=
  endMark ++ x.name ++ x.space ++ ['>']

/-- The text from the mark of an end tag at `close` to the end of the root `r`. -/
def RootSpan.ending (r : RootSpan) (base : List Char) (close : Nat) : List Char :=
  takeBytes (r.stop - close) (dropBytes close base)

/-- The offsets are those of the root of the document `base`, which has the outline `o`. The end of
a root with content begins with a mark, and it is the whole end tag unless the name has a mark,
too. -/
inductive RootSpan.Delimits (o : Outline) (base : List Char) (r : RootSpan) : Prop where
  | content (x : OpenElement) (close : Nat) (root : x.IsRoot o base)
      (selfClosing : r.selfClosing = false)
      (opening : dropBytes r.openEnd base = '>' :: x.body)
      (closing : r.close = some close) (openEnd_lt : r.openEnd < close) (lt_stop : close < r.stop)
      (after : dropBytes r.stop base = x.tail)
      (mark : endMark <+: r.ending base close) (endTag : r.ending base close <:+ x.endTag)
      (whole : r.ending base close = x.endTag ↔ ¬endMark <:+: x.name)
  | tag (x : EmptyElement) (root : x.IsRoot o base)
      (selfClosing : r.selfClosing = true)
      (opening : dropBytes r.openEnd base = '/' :: '>' :: x.tail)
      (closing : r.close = none) (stop : r.stop = r.openEnd + 2)

theorem OpenElement.IsRoot.delimits {x : OpenElement} {o : Outline} (h : x.IsRoot o base) :
    x.span.Delimits o base := by
  obtain ⟨kept, cut, hd⟩ := DividedAtMark.exists_divided x.name
  have hclosed := closed_eq hd
  have hbase : base = x.closed ++ x.tail := h.chars.trans x.closed_append_tail.symm
  have hending : x.span.ending base (byteLength (x.opening ++ ('>' :: x.content ++ kept))) =
      endMark ++ (cut ++ (x.space ++ ['>'])) := by
    rw [RootSpan.ending, hbase, span, hclosed, takeBytes_dropBytes_append]
  have hend : x.endTag = kept ++ (endMark ++ (cut ++ (x.space ++ ['>']))) := by
    rw [endTag, hd.chars]
    simp
  refine .content x _ h rfl ?_ (span_close hd h.space) ?_ ?_ ?_ ?_ ?_ ?_
  · rw [h.chars]
    exact dropBytes_append x.opening _
  · rw [byteLength_append]
    exact Nat.lt_add_of_pos_right (byteLength_pos (List.cons_ne_nil _ _))
  · rw [span, hclosed, byteLength_append _ (endMark ++ _)]
    exact Nat.lt_add_of_pos_right (byteLength_pos (List.cons_ne_nil _ _))
  · rw [hbase]
    exact dropBytes_append x.closed x.tail
  · rw [hending]
    exact List.prefix_append _ _
  · rw [hending, hend]
    exact List.suffix_append _ _
  · rw [hending, hend, ← hd.kept_eq_nil, List.self_eq_append_left]

theorem EmptyElement.IsRoot.delimits {x : EmptyElement} {o : Outline} (h : x.IsRoot o base) :
    x.span.Delimits o base := by
  refine .tag x h rfl ?_ rfl ?_
  · rw [h.chars]
    exact dropBytes_append x.opening _
  · exact byteLength_append x.opening ['/', '>']

/-- A document that is read without a fault can be used exactly if it is `SingleRooted`, and its
root is where `locateRootBy` says. That an end tag has nothing to close, `unbalancedEnd`, is never
found out here. The reader may be any whose outlines are `Outline.Faithful`. -/
theorem root_located_by (hread : ∀ text, (read text).Faithful text) (base : List Char) :
    locateRootBy read base ≠ .error (.invalid .unbalancedEnd) ∧
    ∀ events : List Located, base.head? ≠ some byteOrderMark → read base = ⟨events, none⟩ →
      ((∃ r, locateRootBy read base = .ok r) ↔ SingleRooted events) ∧
      (¬SingleRooted events →
        ∃ fault, Misrooted events fault ∧ locateRootBy read base = .error (.invalid fault)) ∧
      ∀ r, locateRootBy read base = .ok r → r.Delimits (read base) base := by
  refine ⟨locateRootBy_ne_unbalancedEnd hread base, fun events hbom h => ?_⟩
  have hbom := readText_eq_self hbom
  refine ⟨?_, ?_, fun r hr => ?_⟩
  · rcases locateRootBy_cases hread hbom h with ⟨hsingle, hok⟩ | ⟨fault, hmis, herror⟩
    · exact iff_of_true hok hsingle
    · exact iff_of_false (by simp [herror]) hmis.not_singleRooted
  · exact fun hnot => (locateRootBy_cases hread hbom h).resolve_left
      fun ⟨hsingle, _⟩ => hnot hsingle
  · rcases exists_root_of_locateRootBy hread hbom hr with ⟨x, hx, rfl⟩ | ⟨x, hx, rfl⟩
    · exact hx.delimits
    · exact hx.delimits

/-- What `root_located_by` says holds for `locateRoot`, the search by `outline`: a document that is
read without a fault can be used exactly if it is `SingleRooted`, and its root is where it is said
to be. -/
theorem root_located (base : List Char) :
    locateRoot base ≠ .error (.invalid .unbalancedEnd) ∧
    ∀ events : List Located, base.head? ≠ some byteOrderMark → outline base = ⟨events, none⟩ →
      ((∃ r, locateRoot base = .ok r) ↔ SingleRooted events) ∧
      (¬SingleRooted events →
        ∃ fault, Misrooted events fault ∧ locateRoot base = .error (.invalid fault)) ∧
      ∀ r, locateRoot base = .ok r → r.Delimits (outline base) base :=
  root_located_by outline_faithful base

/-- The root is closed behind texts that look like its end tag. -/
def markedDocument : List Char :=
  "<?a </a> ?><a b='</a>'>&lt;<a/><a></a><![CDATA[</a>]]><!-- </a> --></a >\n<!-- </ -->".toList

theorem root_located_marked : ∃ events r, markedDocument.head? ≠ some byteOrderMark ∧
    outline markedDocument = ⟨events, none⟩ ∧ locateRoot markedDocument = .ok r ∧
    r.close = some 67 ∧ SingleRooted events ∧
    r.Delimits (outline markedDocument) markedDocument := by
  have hfacts : (outline markedDocument).fault = none ∧
      (locateRoot markedDocument).toOption.map (·.close) = some (some 67) := by
    decide +kernel
  obtain ⟨hfault, hroot⟩ := hfacts
  obtain ⟨r, hr, hclose⟩ := Option.map_eq_some_iff.mp hroot
  have hr := eq_ok_of_toOption hr
  have houtline : outline markedDocument = ⟨(outline markedDocument).events, none⟩ := by
    rw [← hfault]
  have hbom : markedDocument.head? ≠ some byteOrderMark := by decide
  obtain ⟨-, hlocated⟩ := root_located markedDocument
  obtain ⟨hsingle, -, hspan⟩ := hlocated _ hbom houtline
  exact ⟨_, r, hbom, houtline, hr, hclose, hsingle.mp ⟨r, hr⟩, hspan r hr⟩

/-- An element whose name has a mark. -/
def markedElement : OpenElement where
  lead := []
  name := "x</y".toList
  attributes := " a=\"1\"".toList
  content := "<z/>".toList
  space := [' ']
  tail := []

/-- The offset `close` isn't that of the end tag of the root, but one inside it. -/
theorem close_inside_end_tag :
    markedElement.IsRoot (outline "<x</y a=\"1\"><z/></x</y >".toList)
      "<x</y a=\"1\"><z/></x</y >".toList ∧
    ∃ r close, locateRoot "<x</y a=\"1\"><z/></x</y >".toList = .ok r ∧ r.close = some close ∧
      r.ending "<x</y a=\"1\"><z/></x</y >".toList close ≠ markedElement.endTag := by
  have hroot : markedElement.IsRoot (outline "<x</y a=\"1\"><z/></x</y >".toList)
      "<x</y a=\"1\"><z/></x</y >".toList :=
    ⟨by decide, List.forall_mem_singleton.mpr rfl, [],
      [⟨.empty ['z'] [], "</x</y >".toList⟩], [], by decide +kernel, by simp, rfl⟩
  exact ⟨hroot, markedElement.span, 19, hroot.locateRootBy_eq rfl, by decide, by decide⟩

end Schema

end ApiModel
