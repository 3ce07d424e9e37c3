import ApiModel.Compile
import ApiModel.Proofs.BaseDocument
import Std.Data.TreeMap.Lemmas
import Mathlib.Data.List.Infix
import Mathlib.Data.List.TakeWhile

/-!
# Writing a schema to a file

Compiling between files does what compiling in memory does, with one file read
before and one file written after it. All that can go wrong before the writing
leaves the files as they were. What is written can be read back under the same
path, because a path that leads to a file goes through folders only, and the
folders stay where they are. Nothing else that was there changes, whether the
writing succeeds or not.
-/

namespace ApiModel

/-! ## Paths and their parents -/

namespace Path

theorem exists_idle_end (p : Path) :
    ∃ idle, (∀ s ∈ idle, isIdle s = true) ∧ p.segments = p.trimEnd.segments ++ idle := by
  refine ⟨(p.segments.reverse.takeWhile isIdle).reverse, fun s hs => ?_, ?_⟩
  · exact List.mem_takeWhile_imp (List.mem_reverse.mp hs)
  · show p.segments = (p.segments.reverse.dropWhile isIdle).reverse ++ _
    rw [← List.reverse_append, List.takeWhile_append_dropWhile, List.reverse_reverse]

theorem trimEnd_isPrefix (p : Path) : p.trimEnd.segments <+: p.segments := by
  obtain ⟨idle, -, h⟩ := p.exists_idle_end
  exact ⟨idle, h.symm⟩

theorem components_trimEnd (p : Path) : p.trimEnd.components = p.components := by
  obtain ⟨idle, hidle, h⟩ := p.exists_idle_end
  have hnone : idle.filter (!isIdle ·) = [] := by
    rw [List.filter_eq_nil_iff]
    intro s hs
    simp [hidle s hs]
  rw [components, components, h, List.filter_append, hnone, List.append_nil]

theorem isIdle_of_trimEnd {p : Path} {segments : List String} {last : String}
    (h : p.trimEnd.segments = segments ++ [last]) : isIdle last = false := by
  have hrev : p.segments.reverse.dropWhile isIdle = last :: segments.reverse := by
    rw [← List.reverse_inj, List.reverse_cons, List.reverse_reverse]
    exact h
  have hhead := List.head?_dropWhile_not isIdle p.segments.reverse
  rw [hrev] at hhead
  simpa using hhead

/-- The `parent?` lacks the last component, and is spelled like a beginning of the path. -/
theorem parent?_eq_some {p parent : Path} (h : p.parent? = some parent) :
    (∃ last, p.components = parent.components ++ [last]) ∧ parent.segments <+: p.segments := by
  rcases List.eq_nil_or_concat' p.trimEnd.segments with hnil | ⟨segments, last, hlast⟩
  · rw [parent?, hnil] at h
    cases h
  · have hparent : parent = trimEnd ⟨segments⟩ := by
      unfold parent? at h
      split at h
      · cases h
      · rw [hlast, List.dropLast_concat] at h
        exact (Option.some.inj h).symm
    subst hparent
    refine ⟨⟨last, ?_⟩, ?_⟩
    · rw [components_trimEnd, ← components_trimEnd p, components, hlast, List.filter_append,
        List.filter_singleton, isIdle_of_trimEnd hlast]
      rfl
    · calc (trimEnd ⟨segments⟩).segments
        _ <+: segments := trimEnd_isPrefix ⟨segments⟩
        _ <+: segments ++ [last] := List.prefix_append _ _
        _ = p.trimEnd.segments := hlast.symm
        _ <+: p.segments := p.trimEnd_isPrefix

theorem intercalate_isPrefix (sep : List Char) {xs ys : List (List Char)} (h : xs <+: ys) :
    sep.intercalate xs <+: sep.intercalate ys := by
  obtain ⟨zs, rfl⟩ := h
  induction xs with
  | nil => exact List.nil_prefix
  | cons x xs ih =>
    rcases xs with _ | ⟨x', xs⟩
    · rcases zs with _ | ⟨z, zs⟩
      · exact List.prefix_rfl
      · rw [List.intercalate_singleton, List.singleton_append, List.intercalate_cons_cons,
          List.append_assoc]
        exact List.prefix_append _ _
    · rw [List.cons_append, List.cons_append, List.intercalate_cons_cons,
        List.intercalate_cons_cons, List.prefix_append_right_inj]
      exact ih

theorem exists_toString_append {p q : Path} (h : p.segments <+: q.segments) :
    ∃ rest, q.toString = p.toString ++ rest := by
  obtain ⟨rest, hrest⟩ := intercalate_isPrefix "/".toList (h.map String.toList)
  refine ⟨String.ofList rest, ?_⟩
  rw [String.ext_iff, String.toList_append, String.toList_ofList, toString, toString,
    String.toList_intercalate, String.toList_intercalate, hrest]

end Path

/-! ## Runs on files -/

namespace Output

variable {ε ε' α β : Type}

/-- Runs the action `x` on the store `fs`. -/
def exec (x : Output ε α) (fs : FileStore) : Except ε α × FileStore :=
  x.run.run fs

theorem exec_pure (a : α) (fs : FileStore) : exec (pure a : Output ε α) fs = (.ok a, fs) := rfl

theorem exec_get (fs : FileStore) : exec (get : Output ε FileStore) fs = (.ok fs, fs) := rfl

theorem exec_lift (x : Except ε α) (fs : FileStore) : exec (liftM x : Output ε α) fs = (x, fs) := by
  cases x <;> rfl

theorem exec_bind (x : Output ε α) (f : α → Output ε β) (fs : FileStore) :
    exec (x >>= f) fs = match exec x fs with
      | (.ok a, fs') => exec (f a) fs'
      | (.error e, fs') => (.error e, fs') := by
  show ((x >>= f : ExceptT _ _ _).run.run fs : Except ε β × FileStore) = _
  simp only [ExceptT.run_bind, StateT.run_bind, exec]
  rcases h : (x.run.run fs : Except ε α × FileStore) with ⟨r, fs'⟩
  cases r <;> rfl

theorem exec_discard (x : Output ε α) (fs : FileStore) :
    exec (discard x) fs = match exec x fs with
      | (.ok _, fs') => (.ok (), fs')
      | (.error e, fs') => (.error e, fs') := by
  have hbind : (discard x : Output ε PUnit) = x >>= fun _ => pure () :=
    map_eq_pure_bind (Function.const α PUnit.unit) x
  rw [hbind, exec_bind]
  rfl

theorem exec_adapt (x : Output ε α) (f : ε → ε') (fs : FileStore) :
    exec (x.adapt f) fs = ((exec x fs).1.mapError f, (exec x fs).2) := rfl

end Output

/-! ## Files and folders -/

namespace FileStore

open Output (exec)

variable {fs fs' fs'' : FileStore} {location inner : List String} {p : Path}

theorem node?_put (hne : location ≠ []) (n : Node) (l : List String) :
    (fs.put location n).node? l = if location = l then some n else fs.node? l := by
  unfold node? put
  by_cases hl : l = []
  · rw [if_pos hl, if_pos hl, if_neg (fun h => hne (h.trans hl))]
  · rw [if_neg hl, if_neg hl, Std.TreeMap.getElem?_insert]
    simp only [Std.LawfulEqCmp.compare_eq_iff_eq]

theorem ne_nil_of_node? (h : fs.node? location ≠ some .folder) : location ≠ [] := by
  rintro rfl
  exact h rfl

/-- What is at the location `l` stays as it is, except that a folder may be made where nothing
is. -/
def Keeps (fs fs' : FileStore) (l : List String) : Prop :=
  fs'.node? l = fs.node? l ∨ (fs.node? l = none ∧ fs'.node? l = some .folder)

/-- The store `fs'` is `fs` with folders added to it. -/
def AddsFolders (fs fs' : FileStore) : Prop :=
  ∀ l, fs.Keeps fs' l

theorem Keeps.trans {l : List String} (h : fs.Keeps fs' l) (h' : fs'.Keeps fs'' l) :
    fs.Keeps fs'' l := by
  rcases h with h | ⟨hnone, h⟩
  · unfold Keeps
    rw [← h]
    exact h'
  · rcases h' with h' | ⟨hnone', -⟩
    · exact .inr ⟨hnone, h'.trans h⟩
    · rw [h] at hnone'
      cases hnone'

theorem AddsFolders.refl (fs : FileStore) : fs.AddsFolders fs :=
  fun _ => .inl rfl

theorem AddsFolders.trans (h : fs.AddsFolders fs') (h' : fs'.AddsFolders fs'') :
    fs.AddsFolders fs'' :=
  fun l => (h l).trans (h' l)

theorem addsFolders_put (h : fs.node? location = none) :
    fs.AddsFolders (fs.put location .folder) := by
  intro l
  have hfree : fs.node? location ≠ some .folder := by simp [h]
  unfold Keeps
  rw [node?_put (ne_nil_of_node? hfree)]
  by_cases hl : location = l
  · rw [if_pos hl]
    exact .inr ⟨hl ▸ h, rfl⟩
  · rw [if_neg hl]
    exact .inl rfl

/-! ## Ways through folders -/

theorem node?_of_enter {c : String} (h : fs.enter location c = .ok inner) :
    fs.node? location = some .folder := by
  unfold enter at h
  split at h
  · cases h
  · cases h
  · assumption

theorem enter_congr {c : String} (h : fs'.node? location = fs.node? location) :
    fs'.enter location c = fs.enter location c := by
  unfold enter
  rw [h]

theorem foldlM_enter_cons {c : String} {cs : List String}
    (h : (c :: cs).foldlM fs.enter location = .ok inner) :
    ∃ next, fs.enter location c = .ok next ∧ cs.foldlM fs.enter next = .ok inner := by
  rw [List.foldlM_cons] at h
  rcases hc : fs.enter location c with fault | next
  · rw [hc] at h
    cases h
  · rw [hc] at h
    exact ⟨next, rfl, h⟩

/-- A way by `enter` stays open as long as the folders on it stay. -/
theorem foldlM_enter_mono (hfolders : ∀ l, fs.node? l = some .folder → fs'.node? l = some .folder)
    {cs : List String} (h : cs.foldlM fs.enter location = .ok inner) :
    cs.foldlM fs'.enter location = .ok inner := by
  induction cs generalizing location with
  | nil => exact h
  | cons c cs ih =>
    obtain ⟨next, hc, hcs⟩ := foldlM_enter_cons h
    have hfolder := node?_of_enter hc
    rw [List.foldlM_cons, enter_congr ((hfolders _ hfolder).trans hfolder.symm), hc]
    exact ih hcs

theorem locate_mono (hfolders : ∀ l, fs.node? l = some .folder → fs'.node? l = some .folder)
    (h : fs.locate p = .ok location) : fs'.locate p = .ok location := by
  unfold locate at h ⊢
  by_cases husable : isUsable p = true
  · rw [if_pos husable] at h ⊢
    exact foldlM_enter_mono hfolders h
  · rw [if_neg husable] at h
    cases h

/-! ## Writing -/

/-- The path `p` leads to a place `location`, in a folder that is there, where a file can be. -/
structure Writable (fs : FileStore) (p : Path) (location : List String) : Prop where
  locate : fs.locate p = .ok location
  free : fs.node? location ≠ some .folder
  isFile : p.namesDirectory = false

/-- The file under `p` has the given `content`, and elsewhere only folders are new. -/
structure Wrote (fs : FileStore) (p : Path) (content : ByteArray) (fs' : FileStore) : Prop where
  read : fs'.read p = .ok content
  others : ∀ l, fs'.locate p ≠ .ok l → fs.Keeps fs' l

theorem AddsFolders.wrote {content : ByteArray} (h : fs.AddsFolders fs')
    (h' : fs'.Wrote p content fs'') : fs.Wrote p content fs'' :=
  ⟨h'.read, fun l hl => (h l).trans (h'.others l hl)⟩

theorem Writable.wrote (h : fs.Writable p location) (content : ByteArray) :
    fs.Wrote p content (fs.put location (.file content)) := by
  have hne := ne_nil_of_node? h.free
  -- What is replaced isn't a folder, so no way led through it.
  have hlocate : (fs.put location (.file content)).locate p = .ok location := by
    refine locate_mono (fun l hl => ?_) h.locate
    rw [node?_put hne, if_neg, hl]
    rintro rfl
    exact h.free hl
  refine ⟨?_, fun l hl => .inl ?_⟩
  · have hnode : (fs.put location (.file content)).node? location = some (.file content) := by
      rw [node?_put hne, if_pos rfl]
    simp only [FileStore.read, hlocate, hnode, h.isFile, bind, Except.bind]
    rfl
  · rw [node?_put hne, if_neg]
    rintro rfl
    exact hl hlocate

/-- Either `p` is `Writable`, and is written to, or nothing happens. -/
theorem exec_write_cases (p : Path) (content : ByteArray) (fs : FileStore) :
    (∃ location, fs.Writable p location ∧
      exec (write p content) fs = (.ok (), fs.put location (.file content))) ∨
    ((∀ location, ¬fs.Writable p location) ∧
      ∃ fault, exec (write p content) fs = (.error fault, fs)) := by
  rw [show exec (write p content) fs = write p content fs from rfl]
  unfold write
  split
  · rename_i fault hfault
    refine .inr ⟨fun l hl => ?_, fault, rfl⟩
    rw [hl.locate] at hfault
    cases hfault
  · rename_i location hlocation
    have hunique : ∀ {l}, fs.Writable p l → l = location := fun hl =>
      Except.ok.inj (hl.locate.symm.trans hlocation)
    split
    · rename_i hfolder
      exact .inr ⟨fun l hl => hl.free (hunique hl ▸ hfolder), _, rfl⟩
    · rename_i hfree
      split
      · rename_i hdir
        refine .inr ⟨fun l hl => ?_, _, rfl⟩
        rw [hl.isFile] at hdir
        cases hdir
      · rename_i hdir
        exact .inl ⟨location, ⟨hlocation, hfree, by simpa using hdir⟩, rfl⟩

/-! ## Making folders -/

theorem addsFolders_enterFolder (location : List String) (c : String) (fs : FileStore) :
    fs.AddsFolders (exec (enterFolder location c) fs).2 := by
  show fs.AddsFolders (enterFolder location c fs).2
  unfold enterFolder
  split
  · exact .refl fs
  · split
    · exact .refl fs
    · exact .refl fs
    · rename_i hnone
      exact addsFolders_put hnone

theorem addsFolders_foldlM_enterFolder (cs location : List String) (fs : FileStore) :
    fs.AddsFolders (exec (cs.foldlM enterFolder location) fs).2 := by
  induction cs generalizing location fs with
  | nil => exact .refl fs
  | cons c cs ih =>
    have hstep := addsFolders_enterFolder location c fs
    rw [List.foldlM_cons, Output.exec_bind]
    rcases h : exec (enterFolder location c) fs with ⟨_ | next, fs'⟩ <;> rw [h] at hstep
    · exact hstep
    · exact hstep.trans (ih next fs')

/-- `makeFolders` takes nothing away. -/
theorem addsFolders_makeFolders (p : Path) (fs : FileStore) :
    fs.AddsFolders (exec (makeFolders p) fs).2 := by
  unfold makeFolders
  split
  · have hadds := addsFolders_foldlM_enterFolder p.components [] fs
    rw [Output.exec_discard]
    rcases h : exec (p.components.foldlM enterFolder []) fs with ⟨_ | _, fs'⟩ <;> rw [h] at hadds
    · exact hadds
    · exact hadds
  · exact .refl fs

/-! Where the folders are there, nothing is made. -/

theorem isUsable_of_isPrefix {parent : Path} (h : parent.segments <+: p.segments)
    (husable : isUsable p = true) : isUsable parent = true := by
  obtain ⟨rest, hrest⟩ := Path.exists_toString_append h
  unfold isUsable at husable ⊢
  rw [hrest, String.utf8ByteSize_append, String.toList_append] at husable
  simp only [Bool.and_eq_true, decide_eq_true_eq, Bool.not_eq_true', List.contains_eq_mem,
    decide_eq_false_iff_not, List.mem_append, not_or] at husable ⊢
  exact ⟨by omega, husable.2.1⟩

theorem exec_enterFolder {c : String} (h : fs.enter location c = .ok inner)
    (hinner : fs.node? inner = some .folder) :
    exec (enterFolder location c) fs = (.ok inner, fs) := by
  show enterFolder location c fs = _
  unfold enterFolder
  simp only [h, hinner]

theorem exec_foldlM_enterFolder {cs : List String} {last : String}
    (h : (cs ++ [last]).foldlM fs.enter location = .ok inner) :
    ∃ folder, exec (cs.foldlM enterFolder location) fs = (.ok folder, fs) := by
  induction cs generalizing location with
  | nil => exact ⟨location, rfl⟩
  | cons c cs ih =>
    obtain ⟨next, hc, hcs⟩ := foldlM_enter_cons h
    -- The way goes on after each of these components, so each of them leads to a folder.
    have hnext : fs.node? next = some .folder := by
      rcases cs with _ | ⟨c', cs⟩ <;>
        obtain ⟨_, hc', -⟩ := foldlM_enter_cons hcs <;> exact node?_of_enter hc'
    rw [List.foldlM_cons, Output.exec_bind, exec_enterFolder hc hnext]
    exact ih hcs

theorem exec_makeFolders_parent {parent : Path} (hparent : p.parent? = some parent)
    (h : fs.locate p = .ok location) : exec (makeFolders parent) fs = (.ok (), fs) := by
  obtain ⟨⟨last, hcomponents⟩, hprefix⟩ := Path.parent?_eq_some hparent
  unfold locate at h
  split at h
  · rename_i husable
    rw [hcomponents] at h
    obtain ⟨folder, hfolder⟩ := exec_foldlM_enterFolder h
    rw [makeFolders, if_pos (isUsable_of_isPrefix hprefix husable), Output.exec_discard,
      hfolder]
  · cases h

/-! ## Text in files -/

/-- The path `p` leads to a file with this `text`. -/
def Holds (fs : FileStore) (p : Path) (text : String) : Prop :=
  fs.read p = .ok text.toUTF8

theorem fromUTF8?_eq_some {content : ByteArray} {text : String} :
    String.fromUTF8? content = some text ↔ content = text.toUTF8 := by
  constructor
  · intro h
    unfold String.fromUTF8? at h
    split at h
    · cases h
      rfl
    · cases h
  · rintro rfl
    simp only [String.fromUTF8?, Option.dite_none_right_eq_some]
    exact ⟨text.isValidUTF8, rfl⟩

theorem Holds.unique {text text' : String} (h : fs.Holds p text) (h' : fs.Holds p text') :
    text = text' := by
  have hbytes : text.toUTF8 = text'.toUTF8 := Except.ok.inj (h.symm.trans h')
  rw [← fromUTF8?_eq_some, fromUTF8?_eq_some.mpr rfl] at hbytes
  exact Option.some.inj hbytes

/-- What `Holds` a text can be written again. -/
theorem Holds.writable {text : String} (h : fs.Holds p text) : ∃ l, fs.Writable p l := by
  simp only [Holds, FileStore.read, bind, Except.bind] at h
  rcases hlocate : fs.locate p with fault | l
  · rw [hlocate] at h
    cases h
  · rw [hlocate] at h
    refine ⟨l, hlocate, fun hfolder => ?_, ?_⟩
    · simp only [hfolder] at h
      cases h
    · by_contra hdir
      simp only [Bool.not_eq_false] at hdir
      simp only [hdir, if_true] at h
      split at h <;> cases h

end FileStore

namespace Output

variable {fs : FileStore} {p : Path}

theorem readText_eq_ok {text : String} : readText fs p = .ok text ↔ fs.Holds p text := by
  unfold readText FileStore.Holds
  rcases fs.read p with fault | content
  · simp
  · simp only [Except.ok.injEq, ← FileStore.fromUTF8?_eq_some]
    rcases String.fromUTF8? content with _ | text' <;> simp

theorem readText_of_not_holds (h : ∀ text, ¬fs.Holds p text) :
    ∃ fault, readText fs p = .error (.file p fault) := by
  rcases hread : readText fs p with e | text
  · unfold readText at hread
    split at hread
    · exact ⟨_, congrArg Except.error (Except.error.inj hread).symm⟩
    · split at hread
      · cases hread
      · exact ⟨_, congrArg Except.error (Except.error.inj hread).symm⟩
  · exact absurd (readText_eq_ok.mp hread) (h text)

/-! ## Saving -/

theorem exec_onPath (path : Path) (action : FileStore.Action Unit) (fs : FileStore) :
    exec (onPath path action) fs =
      ((exec action fs).1.mapError (.file path), (exec action fs).2) := rfl

/-- Writes the file `p` after making the folders it lies in. -/
def save (p : Path) (content : ByteArray) : Output OutputError Unit := do
  match p.parent? with
  | none => pure ()
  | some parent => onPath parent (FileStore.makeFolders parent)
  onPath p (FileStore.write p content)

theorem save_of_none (h : p.parent? = none) (content : ByteArray) :
    save p content = onPath p (FileStore.write p content) := by
  simp only [save, h]

theorem save_of_some {parent : Path} (h : p.parent? = some parent) (content : ByteArray) :
    save p content = (do
      onPath parent (FileStore.makeFolders parent)
      onPath p (FileStore.write p content)) := by
  simp only [save, h]

theorem exec_save_of_writable {location : List String} (h : fs.Writable p location)
    (content : ByteArray) :
    exec (save p content) fs = (.ok (), fs.put location (.file content)) := by
  have hwrite : exec (FileStore.write p content) fs =
      (.ok (), fs.put location (.file content)) := by
    rcases FileStore.exec_write_cases p content fs with ⟨l, hl, hwrite⟩ | ⟨hnone, -⟩
    · obtain rfl : l = location := Except.ok.inj (hl.locate.symm.trans h.locate)
      exact hwrite
    · exact absurd h (hnone location)
  rcases hparent : p.parent? with _ | parent
  · rw [save_of_none hparent, exec_onPath, hwrite]
    rfl
  · have hfolders := FileStore.exec_makeFolders_parent hparent h.locate
    simp only [save_of_some hparent, exec_bind, exec_onPath, hfolders, hwrite, Except.mapError]

theorem exec_write (p : Path) (content : ByteArray) (fs : FileStore) :
    (∃ fs', exec (onPath p (FileStore.write p content)) fs = (.ok (), fs') ∧
      fs.Wrote p content fs') ∨
    ∃ fault, exec (onPath p (FileStore.write p content)) fs = (.error (.file p fault), fs) := by
  simp only [exec_onPath]
  rcases FileStore.exec_write_cases p content fs with ⟨l, hl, hwrite⟩ | ⟨-, fault, hwrite⟩
  · rw [hwrite]
    exact .inl ⟨_, rfl, hl.wrote content⟩
  · rw [hwrite]
    exact .inr ⟨fault, rfl⟩

/-- `save` fails for the path itself or for its parent, and then no file has changed. -/
theorem exec_save_cases (p : Path) (content : ByteArray) (fs : FileStore) :
    (∃ fs', exec (save p content) fs = (.ok (), fs') ∧ fs.Wrote p content fs') ∨
    ∃ path fault fs', exec (save p content) fs = (.error (.file path fault), fs') ∧
      (path = p ∨ p.parent? = some path) ∧ fs.AddsFolders fs' := by
  rcases hparent : p.parent? with _ | parent
  · rw [save_of_none hparent]
    rcases exec_write p content fs with ⟨fs', hwrite, hwrote⟩ | ⟨fault, hwrite⟩
    · exact .inl ⟨fs', hwrite, hwrote⟩
    · exact .inr ⟨p, fault, fs, hwrite, .inl rfl, .refl fs⟩
  · have hadds := FileStore.addsFolders_makeFolders parent fs
    rw [save_of_some hparent, exec_bind, exec_onPath]
    rcases hfolders : exec (FileStore.makeFolders parent) fs with ⟨fault | _, fs₁⟩ <;>
      rw [hfolders] at hadds
    · exact .inr ⟨parent, fault, fs₁, rfl, .inr rfl, hadds⟩
    · rcases exec_write p content fs₁ with ⟨fs', hwrite, hwrote⟩ | ⟨fault, hwrite⟩
      · exact .inl ⟨fs', hwrite, hadds.wrote hwrote⟩
      · exact .inr ⟨p, fault, fs₁, hwrite, .inl rfl, hadds⟩

end Output

/-! ## Compiling between files -/

section Compile

open Output (exec save)

variable {decls : List Declaration} {basePath outPath : Path} {fs : FileStore}

theorem generateToFile_eq (cfg : Schema.Config) (m : Model) (basePath outPath : Path) :
    generateToFile cfg m basePath outPath = (do
      let base ← (Output.readText (← get) basePath : Except OutputError String)
      let generated ←
        ((Schema.generate cfg m base).mapError .schema : Except OutputError Schema.Generated)
      save outPath generated.xml.toUTF8
      return generated.diagnostics) := by
  unfold generateToFile save
  rcases outPath.parent? with _ | parent <;> simp

theorem exec_compileToFile_of_analysis_error {e : AnalysisError} (h : analyze decls = .error e) :
    exec (compileToFile decls basePath outPath) fs = (.error (.analysis e), fs) := by
  unfold compileToFile
  rw [h, Output.exec_bind, Output.exec_lift]
  rfl

theorem exec_generateToFile_of_error {cfg : Schema.Config} {m : Model} {e : OutputError}
    (h : Output.readText fs basePath = .error e) :
    exec (generateToFile cfg m basePath outPath) fs = (.error e, fs) := by
  simp only [generateToFile_eq, Output.exec_bind, Output.exec_get, Output.exec_lift, h]

theorem exec_generateToFile_of_holds {cfg : Schema.Config} {m : Model} {text : String}
    (h : fs.Holds basePath text) :
    exec (generateToFile cfg m basePath outPath) fs =
      match Schema.generate cfg m text with
      | .error e => (.error (.schema e), fs)
      | .ok g =>
        match exec (save outPath g.xml.toUTF8) fs with
        | (.ok _, fs') => (.ok g.diagnostics, fs')
        | (.error e, fs') => (.error e, fs') := by
  simp only [generateToFile_eq, Output.exec_bind, Output.exec_get, Output.exec_lift,
    Output.readText_eq_ok.mpr h]
  rcases Schema.generate cfg m text with e | g
  · rfl
  · simp only [Except.mapError]
    rcases exec (save outPath g.xml.toUTF8) fs with ⟨_ | _, fs'⟩ <;> rfl

/-- Once the base document is read, `compileToFile` differs from `compile` in the saving only. -/
theorem exec_compileToFile_of_holds {text : String} (h : fs.Holds basePath text) :
    exec (compileToFile decls basePath outPath) fs =
      match compile decls text with
      | .error e => (.error e, fs)
      | .ok c =>
        match exec (save outPath c.schema.toUTF8) fs with
        | (.ok _, fs') => (.ok c.diagnostics, fs')
        | (.error e, fs') => (.error (.output e), fs') := by
  unfold compileToFile compile
  rcases analyze decls with e | a
  · rfl
  simp only [Except.mapError, Output.exec_bind, Output.exec_lift, Output.exec_adapt,
    exec_generateToFile_of_holds h]
  rcases hg : Schema.generate {} a.model text with e | g
  · simp only [bind, Except.bind, hg]
  · have hc (c : Compilation) : (pure c : Except CompileError Compilation) = .ok c := rfl
    simp only [bind, Except.bind, hg, hc]
    rcases exec (save outPath g.xml.toUTF8) fs with ⟨_ | _, fs'⟩ <;>
      simp only [Output.exec_pure]

theorem compile_of_analysis_error {e : AnalysisError} (h : analyze decls = .error e)
    (text : String) : compile decls text = .error (.analysis e) := by
  rw [compile, h]
  rfl

theorem exec_compileToFile_of_not_holds {a : Analysis} (ha : analyze decls = .ok a)
    (h : ∀ text, ¬fs.Holds basePath text) :
    ∃ fault, exec (compileToFile decls basePath outPath) fs =
      (.error (.output (.file basePath fault)), fs) := by
  obtain ⟨fault, hfault⟩ := Output.readText_of_not_holds h
  refine ⟨fault, ?_⟩
  unfold compileToFile
  simp only [ha, Except.mapError, Output.exec_bind, Output.exec_lift, Output.exec_adapt,
    exec_generateToFile_of_error hfault]

/-- If `compileToFile` succeeds, the base document was text, `compile` gives the schema in the file
and the same diagnostics, and nothing else but folders is new. What fails before the saving fails
with the error that it has in memory, or with one for `basePath`, and leaves all as it was. After
that only the paths that are written to can fail. -/
theorem compileToFile_agrees (decls : List Declaration) (basePath outPath : Path)
    (fs : FileStore) :
    (∀ diagnostics fs', exec (compileToFile decls basePath outPath) fs = (.ok diagnostics, fs') →
      ∃ text c, fs.Holds basePath text ∧ compile decls text = .ok c ∧
        diagnostics = c.diagnostics ∧ fs'.Holds outPath c.schema ∧
        fs.Wrote outPath c.schema.toUTF8 fs') ∧
    (∀ e, analyze decls = .error e →
      exec (compileToFile decls basePath outPath) fs = (.error (.analysis e), fs) ∧
      ∀ text, compile decls text = .error (.analysis e)) ∧
    (∀ a, analyze decls = .ok a → (∀ text, ¬fs.Holds basePath text) →
      ∃ fault, exec (compileToFile decls basePath outPath) fs =
        (.error (.output (.file basePath fault)), fs)) ∧
    (∀ text e, fs.Holds basePath text → compile decls text = .error e →
      exec (compileToFile decls basePath outPath) fs = (.error e, fs)) ∧
    (∀ text c, fs.Holds basePath text → compile decls text = .ok c →
      ((∃ l, fs.Writable outPath l) ∨ outPath = basePath →
        ∃ fs', exec (compileToFile decls basePath outPath) fs = (.ok c.diagnostics, fs')) ∧
      ∀ e fs', exec (compileToFile decls basePath outPath) fs = (.error e, fs') →
        fs.AddsFolders fs' ∧ ∃ path fault, e = .output (.file path fault) ∧
          (path = outPath ∨ outPath.parent? = some path)) := by
  refine ⟨fun diagnostics fs' hrun => ?_, fun e he => ?_, fun a ha hbase => ?_,
    fun text e hbase he => ?_, fun text c hbase hc => ⟨fun hout => ?_, fun e fs' hrun => ?_⟩⟩
  · rcases ha : analyze decls with e | a
    · rw [exec_compileToFile_of_analysis_error ha] at hrun
      cases hrun
    by_cases hbase : ∃ text, fs.Holds basePath text
    · obtain ⟨text, hbase⟩ := hbase
      rw [exec_compileToFile_of_holds hbase] at hrun
      rcases hc : compile decls text with e | c <;> rw [hc] at hrun
      · cases hrun
      · rcases Output.exec_save_cases outPath c.schema.toUTF8 fs with
          ⟨_, hsave, hwrote⟩ | ⟨_, _, _, hsave, -⟩ <;> simp only [hsave] at hrun <;> cases hrun
        exact ⟨text, c, hbase, hc, rfl, hwrote.read, hwrote⟩
    · obtain ⟨fault, hfault⟩ := exec_compileToFile_of_not_holds ha (not_exists.mp hbase)
      rw [hfault] at hrun
      cases hrun
  · exact ⟨exec_compileToFile_of_analysis_error he, compile_of_analysis_error he⟩
  · exact exec_compileToFile_of_not_holds ha hbase
  · rw [exec_compileToFile_of_holds hbase, he]
  · obtain ⟨l, hl⟩ : ∃ l, fs.Writable outPath l :=
      hout.elim id fun heq => heq ▸ hbase.writable
    rw [exec_compileToFile_of_holds hbase, hc]
    simp only [Output.exec_save_of_writable hl]
    exact ⟨_, rfl⟩
  · rw [exec_compileToFile_of_holds hbase, hc] at hrun
    rcases Output.exec_save_cases outPath c.schema.toUTF8 fs with
      ⟨_, hsave, -⟩ | ⟨path, fault, _, hsave, hpath, hadds⟩ <;> simp only [hsave] at hrun <;>
      cases hrun
    exact ⟨hadds, path, fault, rfl, hpath⟩

/-- A place in the store where nothing is yet. -/
theorem writable_empty :
    ({} : FileStore).Writable ⟨["api.xsd"]⟩ ["api.xsd"] where
  locate := by decide +kernel
  free := by simp [FileStore.node?]
  isFile := by decide +kernel

theorem exists_compilation :
    ∃ c, compile Schema.anchorDeclarations Schema.nestedDocument = .ok c := by
  obtain ⟨a, anchors, ha, hanchors⟩ := Schema.exists_anchors
  have hroot : (Schema.locateRoot Schema.nestedDocument.toList).toOption.isSome = true := by
    decide +kernel
  obtain ⟨root, hroot⟩ := Option.isSome_iff_exists.mp hroot
  rw [compile, ha]
  simp only [Except.mapError, bind, Except.bind,
    Schema.generate_of_root hanchors (eq_ok_of_toOption hroot)]
  exact ⟨_, rfl⟩

/-- The schema replaces its base document; without a base document nothing is made. -/
theorem compileToFile_agrees_in_place :
    (∃ fs c fs', fs.Holds ⟨["api.xsd"]⟩ Schema.nestedDocument ∧
      compile Schema.anchorDeclarations Schema.nestedDocument = .ok c ∧
      exec (compileToFile Schema.anchorDeclarations ⟨["api.xsd"]⟩ ⟨["api.xsd"]⟩) fs =
        (.ok c.diagnostics, fs') ∧
      fs'.Holds ⟨["api.xsd"]⟩ c.schema) ∧
    ∃ fault, exec (compileToFile Schema.anchorDeclarations ⟨["api.xsd"]⟩ ⟨["out", "api.xsd"]⟩) {} =
      (.error (.output (.file ⟨["api.xsd"]⟩ fault)), {}) := by
  constructor
  · obtain ⟨c, hc⟩ := exists_compilation
    have hbase := (writable_empty.wrote Schema.nestedDocument.toUTF8).read
    obtain ⟨hok, -, -, -, hlast⟩ := compileToFile_agrees Schema.anchorDeclarations ⟨["api.xsd"]⟩
      ⟨["api.xsd"]⟩ (.put {} ["api.xsd"] (.file Schema.nestedDocument.toUTF8))
    obtain ⟨fs', hrun⟩ := (hlast _ c hbase hc).1 (.inr rfl)
    obtain ⟨text, c', htext, hc', -, hout, -⟩ := hok _ _ hrun
    obtain rfl := FileStore.Holds.unique hbase htext
    obtain rfl := Except.ok.inj (hc.symm.trans hc')
    exact ⟨_, c, fs', hbase, hc, hrun, hout⟩
  · obtain ⟨a, -, ha, -⟩ := Schema.exists_anchors
    have hmissing : FileStore.read {} ⟨["api.xsd"]⟩ = .error .notFound := by
      simp only [FileStore.read, writable_empty.locate, bind, Except.bind]
      simp [FileStore.node?, throw, throwThe, MonadExceptOf.throw]
    refine (compileToFile_agrees _ _ _ _).2.2.1 a ha fun text htext => ?_
    rw [FileStore.Holds, hmissing] at htext
    cases htext

end Compile

end ApiModel
