import TensorGrid.Lib.HashMap

/-!
# File systems

A `Rust.FileSystem` maps paths to directories and files. What is in it lies in a directory
(`FileSystem.parentDir`), so that a file can only be made where a directory is. A path is the list
of its components from the root; the working directory stands in front of a relative one. There are
no links, and everything may be read and written.

An operation that fails for what is in the file system returns `none`; `FileSystem.copy` can also
fail halfway for other reasons (`Fault`), and then leaves what it has written.

* `isDir_writeFile`, `isDir_removeFile`, `isDir_copy`: operations on files keep the directories.
* `isSome_writeFile`, `copy_succeeds`: what can be written, and copied.
* `lookup_createDirs`: making directories changes only the paths on the way.
* `filesUnder_perm`: the files in a directory and below it; `usage` is the bytes they take up.
-/

namespace Rust

/-! ## Paths -/

/-- `PathBuf`. -/
abbrev Path := List String

namespace Path

/-- The components of a text, without empty ones and `.`. -/
def components (s : String) : Path :=
  ((s.toList.splitOn '/').filter fun c => c ≠ [] ∧ c ≠ ['.']).map String.ofList

/-- `Path::join`: an absolute text replaces the path. -/
def join (p : Path) (s : String) : Path :=
  if s.toList.head? = some '/' then components s else p ++ components s

theorem join_of_component {s : String} (p : Path) (hslash : '/' ∉ s.toList) (hempty : s.toList ≠ [])
    (hdot : s.toList ≠ ['.']) : p.join s = p ++ [s] := by
  have hhead : s.toList.head? ≠ some '/' := fun h => hslash (List.mem_of_mem_head? h)
  unfold join components
  rw [if_neg hhead, List.splitOn_eq_singleton hslash]
  simp [hempty, hdot]

end Path

/-! ## File systems -/

inductive FsNode
  | directory
  | file (contents : List UInt8)
deriving DecidableEq, Repr

structure FileSystem where
  nodes : HashMap Path FsNode
  rootDir : nodes.lookup [] = some .directory
  parentDir : ∀ p c, p ++ [c] ∈ nodes → nodes.lookup p = some .directory

/-- An error of the operating system, before a destination is opened or once some bytes have been
written. -/
inductive Fault
  | opening
  | writing (written : Nat)
deriving DecidableEq, Repr

namespace FileSystem

/-- `Path::exists`. -/
def pathExists (fs : FileSystem) (p : Path) : Bool := p ∈ fs.nodes

/-- `Path::is_dir`. -/
def isDir (fs : FileSystem) (p : Path) : Bool := fs.nodes.lookup p = some .directory

/-- Opening a file and reading it to its end. -/
def read (fs : FileSystem) (p : Path) : Option (List UInt8) :=
  match fs.nodes.lookup p with
  | some (.file contents) => some contents
  | _ => none

/-- The path is in a directory. -/
def hasParent (fs : FileSystem) (p : Path) : Bool := p ≠ [] && fs.isDir p.dropLast

/-- Only the root directory. -/
def empty : FileSystem where
  nodes := (∅ : HashMap Path FsNode).insert [] .directory
  rootDir := AList.lookup_insert _
  parentDir := by
    intro p c h
    rcases (AList.mem_insert _).1 h with h | h
    · simp at h
    · simp at h

/-- Set what a path names, unless it is a directory. -/
def set (fs : FileSystem) (p : Path) (node : FsNode) (hparent : fs.hasParent p)
    (hdir : fs.isDir p = false) : FileSystem where
  nodes := fs.nodes.insert p node
  rootDir := by
    have hp : [] ≠ p := by
      rintro rfl
      simp [hasParent] at hparent
    rw [AList.lookup_insert_ne hp, fs.rootDir]
  parentDir := by
    intro q c h
    simp only [hasParent, isDir, Bool.and_eq_true, decide_eq_true_eq, decide_eq_false_iff_not]
      at hparent hdir
    have hq : fs.nodes.lookup q = some .directory := by
      rcases (AList.mem_insert _).1 h with rfl | h
      · rw [← hparent.2, List.dropLast_concat]
      · exact fs.parentDir q c h
    have hne : q ≠ p := by
      rintro rfl
      exact hdir hq
    rw [AList.lookup_insert_ne hne, hq]

/-- `std::fs::write`. -/
def writeFile (fs : FileSystem) (p : Path) (contents : List UInt8) : Option FileSystem :=
  if h : fs.hasParent p ∧ fs.isDir p = false then some (fs.set p (.file contents) h.1 h.2) else none

/-- `std::fs::create_dir`. -/
def createDir (fs : FileSystem) (p : Path) : Option FileSystem :=
  if h : fs.hasParent p ∧ fs.nodes.lookup p = none then
    some (fs.set p .directory h.1 (by simp [isDir, h.2]))
  else none

/-- The directories under `p` that the components name, one in the other. -/
def createDirs (fs : FileSystem) (p : Path) : List String → Option FileSystem
  | [] => some fs
  | c :: cs =>
    if fs.isDir (p ++ [c]) then fs.createDirs (p ++ [c]) cs
    else
      match fs.createDir (p ++ [c]) with
      | some fs => fs.createDirs (p ++ [c]) cs
      | none => none

/-- `std::fs::create_dir_all`. -/
def createDirAll (fs : FileSystem) (p : Path) : Option FileSystem := fs.createDirs [] p

/-- `std::fs::remove_file`. -/
def removeFile (fs : FileSystem) (p : Path) : Option FileSystem :=
  match h : fs.nodes.lookup p with
  | some (.file _) =>
    some {
      nodes := fs.nodes.erase p
      rootDir := by
        have hp : [] ≠ p := by
          rintro rfl
          rw [fs.rootDir] at h
          cases h
        rw [AList.lookup_erase_ne hp, fs.rootDir]
      parentDir := by
        intro q c hmem
        have hq := fs.parentDir q c (AList.mem_erase.1 hmem).2
        have hne : q ≠ p := by
          rintro rfl
          rw [hq] at h
          cases h
        rw [AList.lookup_erase_ne hne, hq] }
  | _ => none

/-- `std::fs::copy`, and whether it has succeeded. Opening the destination empties it. -/
def copy (fs : FileSystem) (source dest : Path) (fault : Option Fault) : Bool × FileSystem :=
  match fs.read source with
  | none => (false, fs)
  | some contents =>
    let contents := if source = dest then [] else contents
    match fault with
    | some .opening => (false, fs)
    | some (.writing n) => (false, (fs.writeFile dest (contents.take n)).getD fs)
    | none => ((fs.writeFile dest contents).isSome, (fs.writeFile dest contents).getD fs)

/-! ## What the operations do -/

variable {fs fs' : FileSystem} {p q : Path} {contents : List UInt8}

theorem lookup_set {node : FsNode} {hparent : fs.hasParent p} {hdir : fs.isDir p = false} :
    (fs.set p node hparent hdir).nodes.lookup q = if q = p then some node else
      fs.nodes.lookup q := by
  unfold set
  split
  · rename_i h
    rw [h, AList.lookup_insert]
  · rename_i h
    rw [AList.lookup_insert_ne h]

/-- Which files can be written. -/
theorem isSome_writeFile :
    (fs.writeFile p contents).isSome ↔ fs.hasParent p ∧ fs.isDir p = false := by
  unfold writeFile
  split <;> simp_all

theorem lookup_writeFile (h : fs.writeFile p contents = some fs') :
    fs'.nodes.lookup q = if q = p then some (.file contents) else fs.nodes.lookup q := by
  unfold writeFile at h
  split at h
  · cases h
    exact lookup_set
  · cases h

theorem isDir_writeFile (h : fs.writeFile p contents = some fs') : fs'.isDir q = fs.isDir q := by
  have hdir := (isSome_writeFile.1 (Option.isSome_iff_exists.2 ⟨fs', h⟩)).2
  unfold isDir at hdir ⊢
  rw [lookup_writeFile h]
  split
  · rename_i hq
    subst hq
    simpa using hdir
  · rfl

theorem lookup_removeFile (h : fs.removeFile p = some fs') :
    fs'.nodes.lookup q = if q = p then none else fs.nodes.lookup q := by
  unfold removeFile at h
  split at h
  · cases h
    split
    · rename_i hq
      rw [hq, AList.lookup_erase]
    · rename_i hq
      rw [AList.lookup_erase_ne hq]
  · cases h

/-- Removing a file changes nothing at another path. -/
theorem lookup_getD_removeFile (hq : q ≠ p) :
    ((fs.removeFile p).getD fs).nodes.lookup q = fs.nodes.lookup q := by
  cases hremove : fs.removeFile p with
  | none => rfl
  | some fs' => exact (lookup_removeFile hremove).trans (if_neg hq)

theorem exists_removeFile (h : fs.read p = some contents) : ∃ fs', fs.removeFile p = some fs' := by
  unfold read at h
  unfold removeFile
  split at h
  · rename_i hp
    split
    · exact ⟨_, rfl⟩
    · simp_all
  · cases h

theorem isDir_removeFile (h : fs.removeFile p = some fs') : fs'.isDir q = fs.isDir q := by
  have hfile : ∃ contents, fs.nodes.lookup p = some (.file contents) := by
    unfold removeFile at h
    split at h
    · rename_i contents hp
      exact ⟨contents, hp⟩
    · cases h
  obtain ⟨contents, hfile⟩ := hfile
  unfold isDir
  rw [lookup_removeFile h]
  split
  · rename_i hq
    rw [hq, hfile]
    rfl
  · rfl

/-- A copy writes its destination or does nothing. -/
theorem copy_cases (fs : FileSystem) (source dest : Path) (fault : Option Fault) :
    (fs.copy source dest fault).2 = fs ∨
      ∃ contents, fs.writeFile dest contents = some (fs.copy source dest fault).2 := by
  have hwrite (contents : List UInt8) : (fs.writeFile dest contents).getD fs = fs ∨
      ∃ contents', fs.writeFile dest contents' = some ((fs.writeFile dest contents).getD fs) := by
    cases h : fs.writeFile dest contents with
    | none => exact .inl rfl
    | some fs' => exact .inr ⟨contents, h⟩
  unfold copy
  cases fs.read source with
  | none => exact .inl rfl
  | some contents =>
    rcases fault with _ | _ | n
    · exact hwrite _
    · exact .inl rfl
    · exact hwrite _

/-- A copy changes only its destination. -/
theorem lookup_copy {source : Path} {fault : Option Fault} (hq : q ≠ p) :
    (fs.copy source p fault).2.nodes.lookup q = fs.nodes.lookup q := by
  rcases copy_cases fs source p fault with h | ⟨contents, h⟩
  · rw [h]
  · rw [lookup_writeFile h, if_neg hq]

theorem isDir_copy {source : Path} {fault : Option Fault} :
    (fs.copy source p fault).2.isDir q = fs.isDir q := by
  rcases copy_cases fs source p fault with h | ⟨contents, h⟩
  · rw [h]
  · rw [isDir_writeFile h]

/-- A copy that succeeds has copied the whole file. -/
theorem read_of_copy {source : Path} {fault : Option Fault} (hsource : source ≠ p)
    (h : (fs.copy source p fault).1 = true) (hread : fs.read source = some contents) :
    (fs.copy source p fault).2.read p = some contents := by
  unfold copy at h ⊢
  rw [hread] at h ⊢
  simp only [if_neg hsource] at h ⊢
  split at h
  · cases h
  · cases h
  · obtain ⟨fs', hfs'⟩ := Option.isSome_iff_exists.1 h
    unfold read
    simp [hfs', lookup_writeFile hfs']

/-- A copy that fails before it writes has changed nothing. -/
theorem copy_failed {source : Path} {fault : Option Fault} (hfault : ∀ n, fault ≠ some (.writing n))
    (h : (fs.copy source p fault).1 = false) : (fs.copy source p fault).2 = fs := by
  unfold copy at h ⊢
  cases hread : fs.read source with
  | none => rfl
  | some contents =>
    simp only [hread] at h
    rcases fault with _ | _ | n
    · simp only at h ⊢
      rw [Option.isSome_eq_false_iff, Option.isNone_iff_eq_none] at h
      rw [h, Option.getD_none]
    · rfl
    · exact absurd rfl (hfault n)

/-- Without an error of the operating system a file can be copied to wherever one can be written. -/
theorem copy_succeeds {source : Path} (hread : fs.read source = some contents) :
    (fs.copy source p none).1 = true ↔ fs.hasParent p ∧ fs.isDir p = false := by
  unfold copy
  rw [hread]
  exact isSome_writeFile

theorem lookup_createDirs {cs : List String} (h : fs.createDirs p cs = some fs')
    (hq : ¬ q <+: p ++ cs) : fs'.nodes.lookup q = fs.nodes.lookup q := by
  induction cs generalizing fs p with
  | nil =>
    cases h
    rfl
  | cons c cs ih =>
    have happend : p ++ c :: cs = p ++ [c] ++ cs := by simp
    have hne : q ≠ p ++ [c] := by
      rintro rfl
      exact hq (happend ▸ List.prefix_append _ _)
    rw [happend] at hq
    unfold createDirs createDir at h
    split at h
    · exact ih h hq
    · split at h
      · rename_i fs₁ hcreate
        split at hcreate
        · cases hcreate
          rw [ih h hq, lookup_set, if_neg hne]
        · cases hcreate
      · cases h

/-- The directories that are made are there. -/
theorem isDir_createDirs {cs : List String} (hp : fs.isDir p) (h : fs.createDirs p cs = some fs') :
    fs'.isDir (p ++ cs) := by
  induction cs generalizing fs p with
  | nil =>
    cases h
    simpa using hp
  | cons c cs ih =>
    rw [List.append_cons]
    unfold createDirs at h
    split at h
    · rename_i hdir
      exact ih hdir h
    · split at h
      · rename_i fs₁ hcreate
        refine ih ?_ h
        unfold createDir at hcreate
        split at hcreate
        · cases hcreate
          simp [isDir, lookup_set]
        · cases hcreate
      · cases h

theorem isDir_createDirAll (h : fs.createDirAll p = some fs') : fs'.isDir p :=
  isDir_createDirs (p := []) (by simp [isDir, fs.rootDir]) h

theorem pathExists_iff : fs.pathExists p ↔ ∃ node, fs.nodes.lookup p = some node := by
  unfold pathExists
  rw [decide_eq_true_iff, ← AList.lookup_isSome, Option.isSome_iff_exists]

theorem pathExists_of_read (h : fs.read p = some contents) : fs.pathExists p := by
  unfold read at h
  split at h
  · rename_i hp
    exact pathExists_iff.2 ⟨_, hp⟩
  · cases h

theorem isDir_of_not_pathExists (h : ¬ fs.pathExists p) : fs.isDir p = false := by
  unfold isDir
  rw [decide_eq_false_iff_not]
  exact fun hp => h (pathExists_iff.2 ⟨_, hp⟩)

@[simp] theorem hasParent_concat (fs : FileSystem) (p : Path) (c : String) :
    fs.hasParent (p ++ [c]) = fs.isDir p := by
  simp [hasParent]

/-- What is in the file system lies in a directory. -/
theorem isDir_of_pathExists {c : String} (h : fs.pathExists (p ++ [c])) : fs.isDir p := by
  unfold pathExists at h
  unfold isDir
  rw [fs.parentDir p c (of_decide_eq_true h)]
  rfl

/-! ## The files under a directory -/

def filesUnder (fs : FileSystem) (dir : Path) : List Path :=
  fs.nodes.keys.filter fun p => dir.isPrefixOf p && (fs.read p).isSome

/-- What the files under the directory take up. -/
def usage (fs : FileSystem) (dir : Path) : Nat :=
  ((fs.filesUnder dir).map fun p => ((fs.read p).getD []).length).sum

theorem mem_filesUnder {dir : Path} :
    p ∈ fs.filesUnder dir ↔ dir <+: p ∧ ∃ contents, fs.read p = some contents := by
  unfold filesUnder
  rw [List.mem_filter, Bool.and_eq_true, List.isPrefixOf_iff_prefix, Option.isSome_iff_exists]
  constructor
  · exact fun h => h.2
  · intro h
    obtain ⟨contents, hread⟩ := h.2
    obtain ⟨node, hnode⟩ := pathExists_iff.1 (pathExists_of_read hread)
    exact ⟨AList.mem_keys.1 (HashMap.mem_of_lookup hnode), h⟩

/-- Any list of the files under the directory, each once. -/
theorem filesUnder_perm {dir : Path} {ps : List Path} (hnodup : ps.Nodup)
    (hps : ∀ p, p ∈ ps ↔ dir <+: p ∧ ∃ contents, fs.read p = some contents) :
    (fs.filesUnder dir).Perm ps := by
  refine (List.perm_ext_iff_of_nodup (fs.nodes.keys_nodup.filter _) hnodup).2 fun p => ?_
  exact mem_filesUnder.trans (hps p).symm

end FileSystem

end Rust
