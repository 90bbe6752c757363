import ArchDoc.Proofs.SystemSimulations
import ArchDoc.Proofs.VolumeWrites

/-!
# Plain volumes

A file tree is a volume without links that refuses nothing, in which every file has one name. No
call can tell the two apart, so a store in a file tree does what it does in such a volume.

Main definitions:

* `Volume.Plain`: a volume that is a file tree.
* `Volume.ofTree`: the volume of a file tree.

Results:

* `plain_ofTree`: every file tree is a volume.
* `Plain.apart`: a temporary file has no other name there.
* `Plain.simulates`: the calls on a file tree and on its volume agree.
* `write_ofTree`: so do the writes of a store, and what is read afterwards.
-/

namespace ArchDoc.Volume

open FileSystem (Alike Both SameRoot Simulates)
open FileTree (Last start named refused lastOf maxName)
open Store (Directory Rooted)

/-! ## File trees as volumes -/

/-- What stands for an entry of a file tree, when files have some contents. -/
inductive Stands (contents : Nat → ByteArray) : Option Node → Option FileEntry → Prop where
  | none : Stands contents none none
  | directory : Stands contents (some .directory) (some .directory)
  | file (number : Nat) : Stands contents (some (.file number)) (some (.file (contents number)))

/-- A volume that is a file tree: nothing is refused, and every file has one name. -/
structure Plain (tree : FileTree) (v : Volume) : Prop where
  here : v.here = tree.here
  lookup : ∀ l, Stands v.contents (v.lookup l) (tree.lookup l)
  single : ∀ {a b number}, v.lookup a = some (.file number) → v.lookup b = some (.file number) →
    a = b
  refusal : ∀ call, v.refusal call = none
  torn : ∀ l, v.torn l = none

/-- What a name stands for in a file tree, with the number that its file would have. -/
def nodeOf (number : Nat) : FileEntry → Node
  | .directory => .directory
  | .file _ => .file number

/-- The content of a file. -/
def contentOf : FileEntry → ByteArray
  | .directory => .empty
  | .file content => content

/-- The volume of a file tree. The number of a file is where it is listed. -/
def ofTree (tree : FileTree) : Volume where
  nodes := tree.entries.map fun entry =>
    (entry.1, nodeOf (tree.entries.findIdx (·.1 == entry.1)) entry.2)
  contents number := (tree.entries[number]?.map fun entry => contentOf entry.2).getD .empty
  here := tree.here
  refusal _ := none
  torn _ := none

variable {tree : FileTree} {v : Volume} {location l : Location} {parts : List String}
  {path : String} {slash followLast : Bool}

theorem lookup_ofTree (tree : FileTree) (l : Location) :
    (ofTree tree).lookup l = (tree.lookup l).map (nodeOf (tree.entries.findIdx (·.1 == l))) := by
  unfold lookup FileTree.lookup ofTree
  split_ifs
  · rfl
  · rw [List.find?_map]
    have hnames : ((fun node : Location × Node => node.1 == l) ∘ fun entry : Location × FileEntry =>
        (entry.1, nodeOf (tree.entries.findIdx (·.1 == entry.1)) entry.2)) = (·.1 == l) := rfl
    rw [hnames]
    cases hfind : tree.entries.find? (·.1 == l) with
    | none => rfl
    | some entry =>
      have hl : entry.1 = l := by simpa using List.find?_some hfind
      subst hl
      rfl

/-- A file of a file tree is listed where its number says. -/
theorem getElem?_findIdx {content : ByteArray} (h : tree.lookup l = some (.file content)) :
    tree.entries[tree.entries.findIdx (·.1 == l)]? = some (l, .file content) := by
  unfold FileTree.lookup at h
  split_ifs at h
  · exact nomatch h
  · obtain ⟨entry, hfind, hentry⟩ := Option.map_eq_some_iff.mp h
    have hl : entry.1 = l := by simpa using List.find?_some hfind
    rw [← List.find?_eq_getElem?_findIdx, hfind, ← hl, ← hentry]

theorem getElem?_of_lookup_ofTree {number : Nat}
    (h : (ofTree tree).lookup l = some (.file number)) :
    ∃ content, tree.entries[number]? = some (l, .file content) := by
  rw [lookup_ofTree] at h
  obtain ⟨entry, hentry, hnode⟩ := Option.map_eq_some_iff.mp h
  cases entry with
  | directory => exact nomatch hnode
  | file content =>
    obtain rfl := Node.file.inj hnode
    exact ⟨content, getElem?_findIdx hentry⟩

/-- Every file tree is a volume. -/
theorem plain_ofTree (tree : FileTree) : Plain tree (ofTree tree) where
  here := rfl
  refusal _ := rfl
  torn _ := rfl
  lookup l := by
    rw [lookup_ofTree]
    cases hentry : tree.lookup l with
    | none => exact .none
    | some entry =>
      cases entry with
      | directory => exact .directory
      | file content =>
        have hcontent : (ofTree tree).contents (tree.entries.findIdx (·.1 == l)) = content := by
          simp [ofTree, getElem?_findIdx hentry, contentOf]
        rw [← hcontent]
        exact .file _
  single {a b number} ha hb := by
    obtain ⟨_, ha⟩ := getElem?_of_lookup_ofTree ha
    obtain ⟨_, hb⟩ := getElem?_of_lookup_ofTree hb
    exact (Prod.mk.inj (Option.some.inj (ha.symm.trans hb))).1

namespace Plain

theorem link?_eq_none (h : Plain tree v) (l : Location) : v.link? l = none := by
  have hnode := h.lookup l
  unfold link?
  generalize v.lookup l = node at hnode
  generalize tree.lookup l = entry at hnode
  cases hnode <;> rfl

theorem lookup_eq_directory_iff (h : Plain tree v) :
    v.lookup l = some .directory ↔ tree.lookup l = some .directory := by
  have hnode := h.lookup l
  generalize v.lookup l = node at hnode
  generalize tree.lookup l = entry at hnode
  cases hnode <;> simp

theorem not_twin (h : Plain tree v) (a b : Location) : ¬v.Twin a b := by
  rintro ⟨hne, number, ha, hb⟩
  exact hne (h.single ha hb)

/-- A temporary file has no other name. -/
theorem apart (h : Plain tree v) (file : String) : v.Apart file :=
  fun beside _ => ⟨h.link?_eq_none beside, fun _ l _ _ => h.not_twin beside l⟩

/-! ## Paths -/

/-- What the last part of a path says in the directory where it lies. -/
def finish (dir : Location) (parts : List String) (slash : Bool) :
    Except OsError (Location × Last) :=
  match parts.getLast? with
  | none => .ok (dir, .known dir)
  | some part =>
    if part = "." then .ok (dir, .known dir)
    else if part = ".." then .ok (dir.dropLast, .known dir.dropLast)
    else if maxName < part.utf8ByteSize then .error .nameTooLong
    else .ok (dir, .name part slash)

/-- Without links a path is followed as in a file tree. -/
theorem resolve (h : Plain tree v) (links : Nat) :
    v.resolve followLast links location parts slash =
      match tree.follow location parts.dropLast with
      | .error e => .error e
      | .ok dir => finish dir parts slash := by
  induction parts generalizing location with
  | nil => exact resolve_nil links
  | cons part rest ih =>
    rw [resolve_cons]
    unfold turn
    cases rest with
    | nil =>
      unfold finish
      dsimp only [List.isEmpty_nil, List.dropLast_singleton, List.getLast?_singleton,
        FileTree.follow]
      split_ifs
      · exact resolve_nil links
      · exact resolve_nil links
      · rfl
      · rw [turnAt, if_pos rfl, h.link?_eq_none, ite_self]
        rfl
    | cons next rest =>
      have hfinish : ∀ dir,
          finish dir (part :: next :: rest) slash = finish dir (next :: rest) slash := by
        intro dir
        rw [finish, List.getLast?_cons_cons, finish]
      rw [List.dropLast_cons_of_ne_nil (List.cons_ne_nil _ _), FileTree.follow]
      simp only [hfinish, List.isEmpty_cons]
      split_ifs
      · exact ih
      · exact ih
      · rfl
      · have hnode := h.lookup (location ++ [part])
        rw [turnAt, if_neg Bool.false_ne_true, h.refusal]
        generalize v.lookup (location ++ [part]) = node at hnode
        generalize tree.lookup (location ++ [part]) = entry at hnode
        cases hnode with
        | none => rfl
        | directory => exact ih
        | file number => rfl

/-- The same for a directory that is known without a name, in which nothing is looked for. -/
def settled : Location × Last → Location × Last
  | (_, .known l) => (l, .known l)
  | (dir, .name name slash) => (dir, .name name slash)

theorem approach (h : Plain tree v) (path : String) :
    v.approach path = (tree.approach path).map settled := by
  rw [Volume.approach, locate, FileTree.approach_eq, h.here, h.resolve]
  cases refused path with
  | some cause => rfl
  | none =>
    dsimp only
    cases tree.follow (start tree.here path) (named path).dropLast with
    | error e => rfl
    | ok dir =>
      unfold finish lastOf
      dsimp only
      cases (named path).getLast? with
      | none => rfl
      | some part =>
        dsimp only
        split_ifs <;> rfl

theorem arrive (h : Plain tree v) (path : String) :
    v.arrive path = (tree.approach path).map settled := by
  rw [arrive_eq fun l _ => h.link?_eq_none l, h.approach]

/-! ## Calls -/

theorem readFile (h : Plain tree v) (path : String) : v.readFile path = tree.readFile path := by
  rw [Volume.readFile, h.arrive, FileTree.readFile, FileTree.status]
  cases tree.approach path with
  | error cause => rfl
  | ok found =>
    obtain ⟨dir, last⟩ := found
    cases last with
    | known l => rfl
    | name name slash =>
      have hnode := h.lookup (dir ++ [name])
      dsimp only [Except.map, settled, bind, Except.bind]
      generalize v.lookup (dir ++ [name]) = node at hnode
      generalize tree.lookup (dir ++ [name]) = entry at hnode
      cases hnode with
      | none => rfl
      | directory => rfl
      | file number =>
        dsimp only [unlessRefused]
        rw [h.refusal]
        cases slash <;> rfl

theorem readText (h : Plain tree v) (path : String) : v.readText path = tree.readText path := by
  rw [Volume.readText, h.readFile]
  rfl

theorem isDirectory (h : Plain tree v) (path : String) :
    v.isDirectory path = tree.isDirectory path := by
  rw [Volume.isDirectory, h.arrive, FileTree.isDirectory, FileTree.status]
  cases tree.approach path with
  | error cause => rfl
  | ok found =>
    obtain ⟨dir, last⟩ := found
    cases last with
    | known l => rfl
    | name name slash =>
      have hnode := h.lookup (dir ++ [name])
      dsimp only [Except.map, settled, bind, Except.bind]
      generalize v.lookup (dir ++ [name]) = node at hnode
      generalize tree.lookup (dir ++ [name]) = entry at hnode
      cases hnode with
      | none => rfl
      | directory => rfl
      | file number => cases slash <;> rfl

/-- A name without a file is the same in both. -/
theorem erase (h : Plain tree v) (hl : location ≠ []) :
    Plain (tree.erase location) (v.erase location) where
  here := h.here
  refusal := h.refusal
  torn := h.torn
  lookup l := by
    rw [lookup_erase hl, FileTree.lookup_erase hl]
    split_ifs
    · exact .none
    · exact h.lookup l
  single {a b number} ha hb := by
    rw [lookup_erase hl] at ha hb
    split_ifs at ha hb
    exact h.single ha hb

theorem putDirectory (h : Plain tree v) (hl : location ≠ []) :
    Plain (tree.put location .directory) (v.put location .directory) where
  here := h.here
  refusal := h.refusal
  torn := h.torn
  lookup l := by
    rw [lookup_put hl, FileTree.lookup_put hl]
    split_ifs
    · exact .directory
    · exact h.lookup l
  single {a b number} ha hb := by
    rw [lookup_put hl] at ha hb
    split_ifs at ha hb
    · exact nomatch ha
    · exact nomatch ha
    · exact nomatch hb
    · exact h.single ha hb

/-- A file that was written has its content in both. -/
theorem written {number : Nat} {w : Volume} (h : Plain tree v) (hl : location ≠ [])
    (hwritten : Written location number v w) :
    Plain (tree.put location (.file (w.contents number))) w where
  here := hwritten.here.trans h.here
  refusal call := (congrFun hwritten.refusal call).trans (h.refusal call)
  torn l := (congrFun hwritten.torn l).trans (h.torn l)
  lookup l := by
    rw [hwritten.lookup, FileTree.lookup_put hl]
    split_ifs with hwhere
    · exact .file number
    · have hnode := h.lookup l
      have hnumber := hwritten.lookup_ne hwhere (h.not_twin _ _)
      generalize v.lookup l = node at hnode hnumber
      generalize tree.lookup l = entry at hnode
      cases hnode with
      | none => exact .none
      | directory => exact .directory
      | file n =>
        rw [← hwritten.contents n fun hn => hnumber (hn ▸ rfl)]
        exact .file n
  single {a b n} ha hb := by
    rw [hwritten.lookup] at ha hb
    split_ifs at ha hb with ha' hb' hb'
    · exact ha'.trans hb'.symm
    · exact absurd (hb.trans ha.symm) (hwritten.lookup_ne hb' (h.not_twin _ _))
    · exact absurd (ha.trans hb.symm) (hwritten.lookup_ne ha' (h.not_twin _ _))
    · exact h.single ha hb

/-- A file without a name gets one in both. -/
theorem putFile {number : Nat} (h : Plain tree v) (hl : location ≠ [])
    (hunnamed : ∀ l, v.lookup l ≠ some (.file number)) :
    Plain (tree.put location (.file (v.contents number))) (v.put location (.file number)) where
  here := h.here
  refusal := h.refusal
  torn := h.torn
  lookup l := by
    rw [lookup_put hl, FileTree.lookup_put hl]
    split_ifs
    · exact .file number
    · exact h.lookup l
  single {a b n} ha hb := by
    rw [lookup_put hl] at ha hb
    split_ifs at ha hb with ha' hb' hb'
    · exact ha'.trans hb'.symm
    · exact absurd (hb.trans ha.symm) (hunnamed b)
    · exact absurd (ha.trans hb.symm) (hunnamed a)
    · exact h.single ha hb

/-- A file that was moved is moved in both. -/
theorem moved {source target : Location} {number : Nat} (h : Plain tree v) (hsource : source ≠ [])
    (htarget : target ≠ []) (hnode : v.lookup source = some (.file number)) :
    Plain ((tree.erase source).put target (.file (v.contents number)))
      ((v.erase source).put target (.file number)) := by
  refine (h.erase hsource).putFile htarget fun l hl => ?_
  rw [lookup_erase hsource] at hl
  split_ifs at hl with hwhere
  exact hwhere (h.single hl hnode)

/-- A file that was moved to its own place is where it was. -/
theorem moved_self {number : Nat} (h : Plain tree v) (hl : location ≠ [])
    (hnode : v.lookup location = some (.file number)) :
    Plain ((tree.erase location).put location (.file (v.contents number))) v where
  here := h.here
  refusal := h.refusal
  torn := h.torn
  lookup l := by
    rw [FileTree.lookup_put hl, FileTree.lookup_erase hl]
    split_ifs with hwhere
    · rw [hwhere, hnode]
      exact .file number
    · exact h.lookup l
  single := h.single

/-! ## Simulation -/

theorem makeDirectory (h : Plain tree v) (path : String) :
    Alike Plain (tree.makeDirectory path) (v.makeDirectory path) := by
  rw [Volume.makeDirectory, h.approach, FileTree.makeDirectory]
  cases tree.approach path with
  | error cause => exact .error cause
  | ok found =>
    obtain ⟨dir, last⟩ := found
    cases last with
    | known l => exact .error _
    | name name slash =>
      have hne : dir ++ [name] ≠ [] := by simp
      have hput := h.putDirectory hne
      have hnode := h.lookup (dir ++ [name])
      dsimp only [Except.map, settled, bind, Except.bind, pure, Except.pure]
      generalize v.lookup (dir ++ [name]) = node at hnode
      generalize tree.lookup (dir ++ [name]) = entry at hnode
      cases hnode with
      | none =>
        dsimp only [unlessRefused]
        rw [h.refusal]
        exact .ok hput
      | directory => exact .error _
      | file number => exact .error _

theorem removeFile (h : Plain tree v) (path : String) :
    Alike Plain (tree.removeFile path) (v.removeFile path) := by
  rw [Volume.removeFile, h.approach, FileTree.removeFile]
  cases tree.approach path with
  | error cause => exact .error cause
  | ok found =>
    obtain ⟨dir, last⟩ := found
    cases last with
    | known l => exact .error _
    | name name slash =>
      have hne : dir ++ [name] ≠ [] := by simp
      have herase := h.erase hne
      have hnode := h.lookup (dir ++ [name])
      dsimp only [Except.map, settled, bind, Except.bind, pure, Except.pure]
      generalize v.lookup (dir ++ [name]) = node at hnode
      generalize tree.lookup (dir ++ [name]) = entry at hnode
      cases hnode with
      | none => exact .error _
      | directory => exact .error _
      | file number =>
        cases slash with
        | true => exact .error _
        | false =>
          dsimp only [unlessRefused]
          rw [h.refusal]
          exact .ok herase

/-- A file is created or written to in both, unless there is a directory. -/
theorem createAt (h : Plain tree v) (hl : location ≠ []) (content : ByteArray) :
    tree.lookup location = some .directory ∧
        v.createAt location content = (v, .error (.os .isDirectory)) ∨
      tree.lookup location ≠ some .directory ∧
        ∃ w, v.createAt location content = (w, .ok ()) ∧
          Plain (tree.put location (.file content)) w := by
  have hstands := h.lookup location
  unfold Volume.createAt write
  rw [h.refusal]
  cases hnode : v.lookup location with
  | none =>
    rw [hnode] at hstands
    have hwritten := written_put hl hnode content
    have hplain := h.written hl hwritten
    have htorn : (v.put location (.file v.fresh)).torn location = none := h.torn location
    dsimp only
    rw [htorn]
    refine .inr ⟨?_, _, rfl, ?_⟩
    · generalize tree.lookup location = entry at hstands
      cases hstands
      simp
    · rwa [contents_fill] at hplain
  | some node =>
    rw [hnode] at hstands
    generalize hentry : tree.lookup location = entry at hstands
    cases hstands with
    | directory => exact .inl ⟨rfl, rfl⟩
    | file number =>
      have hplain := h.written hl (written_fill hnode content)
      rw [contents_fill] at hplain
      dsimp only
      rw [h.torn]
      exact .inr ⟨by simp, _, rfl, hplain⟩

theorem createFile (h : Plain tree v) (path : String) (content : ByteArray) :
    Both Plain (FileSystem.createFile tree path content) (v.createFile path content) := by
  unfold FileSystem.createFile FileTree.instFileSystem
  dsimp only
  rw [Volume.createFile, h.arrive, FileTree.createFile]
  cases tree.approach path with
  | error cause => exact ⟨h, rfl⟩
  | ok found =>
    obtain ⟨dir, last⟩ := found
    cases last with
    | known l => exact ⟨h, rfl⟩
    | name name slash =>
      cases slash with
      | true => exact ⟨h, rfl⟩
      | false =>
        dsimp only [Except.map, settled, bind, Except.bind, pure, Except.pure]
        rw [if_neg Bool.false_ne_true, if_neg Bool.false_ne_true]
        have hne : dir ++ [name] ≠ [] := by simp
        rcases h.createAt hne content with
          ⟨hdirectory, hcreate⟩ | ⟨hdirectory, w, hcreate, hplain⟩
        · rw [hdirectory, hcreate]
          exact ⟨h, rfl⟩
        · rw [hcreate]
          cases hentry : tree.lookup (dir ++ [name]) with
          | none => exact ⟨hplain, rfl⟩
          | some entry =>
            cases entry with
            | directory => exact absurd hentry hdirectory
            | file old => exact ⟨hplain, rfl⟩

/-- A file is moved in both, unless there is a directory in its new place. -/
theorem renameAt (h : Plain tree v) {source target : Location} {number : Nat}
    (hsource : source ≠ []) (htarget : target ≠ [])
    (hnode : v.lookup source = some (.file number)) :
    tree.lookup target = some .directory ∧
        v.renameAt source target false = .error (.os .isDirectory) ∨
      tree.lookup target ≠ some .directory ∧
        ∃ w, v.renameAt source target false = .ok w ∧
          Plain ((tree.erase source).put target (.file (v.contents number))) w := by
  rw [Volume.renameAt, hnode]
  dsimp only
  rw [if_neg Bool.false_ne_true]
  by_cases hdirectory : v.lookup target = some .directory
  · rw [if_pos hdirectory]
    exact .inl ⟨h.lookup_eq_directory_iff.mp hdirectory, rfl⟩
  · rw [if_neg hdirectory]
    refine .inr ⟨fun htree => hdirectory (h.lookup_eq_directory_iff.mpr htree), ?_⟩
    split_ifs with hsame
    · refine ⟨v, rfl, ?_⟩
      rcases sameFile_eq_true_iff.mp hsame with rfl | ⟨n, hn, hother⟩
      · exact h.moved_self hsource hnode
      · obtain rfl := h.single hn hother
        exact h.moved_self hsource hnode
    · rw [unlessRefused, h.refusal]
      exact ⟨_, rfl, h.moved hsource htarget hnode⟩

theorem rename (h : Plain tree v) (source target : String) :
    Alike Plain (tree.rename source target) (v.rename source target) := by
  rw [Volume.rename, h.approach, h.approach, FileTree.rename]
  cases tree.approach source with
  | error cause => exact .error cause
  | ok sourceFound =>
    cases tree.approach target with
    | error cause => exact .error cause
    | ok targetFound =>
      obtain ⟨sourceDir, sourceLast⟩ := sourceFound
      obtain ⟨targetDir, targetLast⟩ := targetFound
      cases sourceLast with
      | known l => exact .error _
      | name sourceName _ =>
        cases targetLast with
        | known l => exact .error _
        | name targetName slash =>
          dsimp only [Except.map, settled, bind, Except.bind, pure, Except.pure]
          have hstands := h.lookup (sourceDir ++ [sourceName])
          generalize hnode : v.lookup (sourceDir ++ [sourceName]) = node at hstands
          generalize tree.lookup (sourceDir ++ [sourceName]) = entry at hstands
          rcases hstands with _ | _ | number
          · rw [Volume.renameAt, hnode]
            exact .error _
          · rw [Volume.renameAt, hnode]
            exact .error _
          · cases slash with
            | true =>
              rw [Volume.renameAt, hnode]
              exact .error _
            | false =>
              have hsource : sourceDir ++ [sourceName] ≠ [] := by simp
              have htarget : targetDir ++ [targetName] ≠ [] := by simp
              rcases h.renameAt hsource htarget hnode with
                ⟨hdirectory, hmoved⟩ | ⟨hdirectory, w, hmoved, hplain⟩
              · rw [hdirectory, hmoved]
                exact .error _
              · rw [hmoved]
                cases hother : tree.lookup (targetDir ++ [targetName]) with
                | none => exact .ok hplain
                | some other =>
                  cases other with
                  | directory => exact absurd hother hdirectory
                  | file old => exact .ok hplain

theorem simulates : Simulates Plain where
  readText h path := (h.readText path).symm
  isDirectory h path := (h.isDirectory path).symm
  makeDirectory h := h.makeDirectory
  createFile h := h.createFile
  rename h := h.rename
  removeFile h := h.removeFile

end Plain

/-- **Theorem.** A write in a file tree has the outcome that it has in the volume of the tree, and
what it leaves is still the file tree of a volume; so the same is read of every document
afterwards. -/
theorem write_ofTree (store : Directory) (path text : String) :
    let volume : Rooted Volume := ⟨store.root, ofTree store.tree⟩
    (store.write path text).2 = (volume.write path text).2 ∧
      Plain (store.write path text).1.tree (volume.write path text).1.tree ∧
      ∀ other, (store.write path text).1.read other = (volume.write path text).1.read other := by
  have hbefore : SameRoot Plain store ⟨store.root, ofTree store.tree⟩ := ⟨rfl, plain_ofTree _⟩
  obtain ⟨hafter, houtcome⟩ := Plain.simulates.write hbefore path text
  exact ⟨houtcome, hafter.tree, Plain.simulates.read hafter⟩

end ArchDoc.Volume
