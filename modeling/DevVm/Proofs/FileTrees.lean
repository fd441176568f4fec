import DevVm.World.FileTree

/-!
# Files that are found again

Where a path leads does not change when something is put where no directory was: every directory
on the way is still there (`locate_put`). So the file that was opened is the one that is written to
afterwards and that is given other permissions (`Leads.put`), and all else that was there is as it
was (`Keeps`).
-/

namespace DevVm.World.FileTree

/-! ## Ways that stay -/

/-- What is at a place is no directory, if there is anything. -/
def NoDirectory (t : FileTree) (place : Place) : Prop :=
  ∀ mode, t.node? place ≠ some (.directory mode)

/-- A path leads to a file. -/
structure Leads (t : FileTree) (path : String) (place : Place) (mode : Nat) (content : Bytes) :
    Prop where
  way : t.locate path = .ok (.entry place false)
  file : t.lookUp place = .ok (some (.file mode content))

section Ways

variable {t : FileTree} {path : String} {place other dir : Place} {target : Target} {mode : Nat}
  {content : Bytes} {name : String} {found : Option Node}

theorem NoDirectory.ne_root (h : t.NoDirectory place) : place ≠ [] := by
  rintro rfl
  exact h directoryMode rfl

theorem node?_put (h : t.NoDirectory place) (node : Node) (other : Place) :
    (t.put place node).node? other = if place = other then some node else t.node? other := by
  unfold node? put
  split
  next hroot => rw [if_neg fun heq => h.ne_root (heq.trans hroot)]
  next => exact Table.get?_put _ _ _ _

theorem lookUp_eq_ok_iff : t.lookUp place = .ok found ↔
    place.getLast?.any (nameLimit < ·.utf8ByteSize) = false ∧ t.node? place = found := by
  unfold lookUp
  split
  next hlong => simp [hlong]
  next hshort => simp [hshort]

theorem noDirectory_of_lookUp (h : t.lookUp place = .ok found)
    (hfound : ∀ mode, found ≠ some (.directory mode)) : t.NoDirectory place := fun mode hnode =>
  hfound mode ((lookUp_eq_ok_iff.mp h).2.symm.trans hnode)

/-- What was put somewhere is found there. -/
theorem lookUp_put (h : t.NoDirectory place) (hfound : t.lookUp place = .ok found) (node : Node) :
    (t.put place node).lookUp place = .ok (some node) := by
  refine lookUp_eq_ok_iff.mpr ⟨(lookUp_eq_ok_iff.mp hfound).1, ?_⟩
  rw [node?_put h, if_pos rfl]

theorem enter_eq_ok_iff : t.enter dir name = .ok other ↔
    name = "." ∧ dir = other ∨ name ≠ "." ∧ name = ".." ∧ dir.dropLast = other ∨
      name ≠ "." ∧ name ≠ ".." ∧ dir ++ [name] = other ∧
        ∃ mode, t.lookUp (dir ++ [name]) = .ok (some (.directory mode)) := by
  unfold enter
  split
  next hdot => simp [hdot]
  split
  next hdots => simp [hdots]
  next hdot hdots =>
    split
    next hlook => simp [hdot, hdots, hlook]
    next hlook => simp [hdot, hdots, hlook]
    next hlook => simp [hdot, hdots, hlook]
    next hlook => simp [hdot, hdots, hlook]

/-- A directory that could be entered still can when something was put where there was none. -/
theorem enter_put (h : t.NoDirectory place) (node : Node) (henter : t.enter dir name = .ok other) :
    (t.put place node).enter dir name = .ok other := by
  rw [enter_eq_ok_iff] at henter ⊢
  refine henter.imp_right (Or.imp_right fun ⟨hdot, hdots, heq, mode, hlook⟩ => ?_)
  obtain ⟨hshort, hnode⟩ := lookUp_eq_ok_iff.mp hlook
  refine ⟨hdot, hdots, heq, mode, lookUp_eq_ok_iff.mpr ⟨hshort, ?_⟩⟩
  rw [node?_put h, if_neg]
  · exact hnode
  · rintro rfl
    exact h mode hnode

theorem foldlM_enter_put (h : t.NoDirectory place) (node : Node) {names : List String}
    (hway : names.foldlM t.enter dir = .ok other) :
    names.foldlM (t.put place node).enter dir = .ok other := by
  induction names generalizing dir with
  | nil => exact hway
  | cons name names ih =>
    rw [List.foldlM_cons] at hway ⊢
    obtain ⟨next, henter, hrest⟩ := exists_of_bind_ok hway
    rw [enter_put h node henter]
    exact ih hrest

/-- A path is about the same place as before when something was put where there was no directory. -/
theorem locate_put (h : t.NoDirectory place) (node : Node) (hway : t.locate path = .ok target) :
    (t.put place node).locate path = .ok target := by
  unfold locate at hway ⊢
  dsimp only at hway ⊢
  split at hway
  · cases hway
  next hnul =>
  rw [if_neg hnul]
  split at hway
  · cases hway
  next hshort =>
  rw [if_neg hshort]
  split at hway
  · cases hway
  next hsome =>
  rw [if_neg hsome]
  split at hway
  next => exact hway
  next last hlast =>
    obtain ⟨dir, hdir, hrest⟩ := exists_of_bind_ok hway
    rw [show (t.put place node).here = t.here from rfl, foldlM_enter_put h node hdir]
    dsimp only [bind, Except.bind] at hrest ⊢
    split at hrest
    next hdots =>
      obtain ⟨inside, henter, hinside⟩ := exists_of_bind_ok hrest
      rw [if_pos hdots, enter_put h node henter]
      exact hinside
    next hdots =>
      rw [if_neg hdots]
      exact hrest

theorem find_eq_ok_iff : t.find path = .ok (place, .file mode content) ↔
    t.Leads path place mode content := by
  constructor
  · intro h
    unfold find at h
    obtain ⟨target, hway, h⟩ := exists_of_bind_ok h
    obtain ⟨found, hlook, h⟩ := exists_of_bind_ok h
    split at h
    next => cases h
    next =>
      dsimp only at h
      split at h
      next => cases h
      next hslash =>
        cases h
        cases target with
        | inside place => exact absurd rfl hslash
        | entry place slash =>
          -- A path that ends in a slash leads to no file.
          obtain rfl : slash = false := by simpa [Target.slash] using hslash
          exact ⟨hway, hlook⟩
    next => cases h
  · rintro ⟨hway, hfile⟩
    unfold find
    rw [hway]
    show (t.lookUp place >>= fun found => _) = _
    rw [hfile]
    rfl

end Ways

/-! ## What changes -/

/-- Everything that was there is there unchanged, but for what is at one place at most. -/
def Keeps (t now : FileTree) (besides : Option Place) : Prop :=
  ∀ place node, besides ≠ some place → t.node? place = some node → now.node? place = some node

section Changes

variable {t now later : FileTree} {path : String} {place : Place} {node : Node}
  {besides : Option Place} {mode : Nat} {content octets : Bytes}

theorem Keeps.refl (t : FileTree) (besides : Option Place) : t.Keeps t besides := fun _ _ _ h => h

theorem Keeps.trans (h : t.Keeps now besides) (h' : now.Keeps later besides) :
    t.Keeps later besides := fun place node hother hnode =>
  h' place node hother (h place node hother hnode)

theorem Keeps.but (h : t.Keeps now none) (place : Place) : t.Keeps now (some place) :=
  fun other node _ hnode => h other node nofun hnode

/-- What is put at one place leaves the others as they are. -/
theorem keeps_put (h : t.NoDirectory place) (node : Node) :
    t.Keeps (t.put place node) (some place) := fun other found hother hnode => by
  rw [node?_put h, if_neg fun heq => hother (congrArg some heq)]
  exact hnode

theorem keeps_createDir (h : t.createDir path = .ok now) : t.Keeps now none := by
  unfold createDir at h
  obtain ⟨target, -, h⟩ := exists_of_bind_ok h
  split at h
  next => cases h
  next place slash =>
    obtain ⟨found, hfound, h⟩ := exists_of_bind_ok h
    dsimp only at h
    split at h
    next => cases h
    next hnone =>
      cases h
      obtain rfl : found = none := by simpa using hnone
      have hnode := (lookUp_eq_ok_iff.mp hfound).2
      intro other node _ hother
      rw [node?_put (noDirectory_of_lookUp hfound nofun), if_neg]
      · exact hother
      · rintro rfl
        rw [hnode] at hother
        cases hother

theorem keeps_ensureDir (path : String) (t : FileTree) : t.Keeps (t.ensureDir path).2 none := by
  unfold ensureDir
  split
  next now h => exact keeps_createDir h
  next => exact .refl t none

/-- Creating directories changes nothing that is there. -/
theorem keeps_createChain (chain : List String) (t : FileTree) :
    t.Keeps (createChain chain t).2 none := by
  induction chain with
  | nil => exact .refl t none
  | cons path above ih =>
    unfold createChain
    split
    next => exact .refl t none
    split
    next =>
      split
      next now habove =>
        rw [habove] at ih
        exact Keeps.trans ih (keeps_ensureDir path now)
      next => exact ih
    next => exact keeps_ensureDir path t

theorem Leads.noDirectory (h : t.Leads path place mode content) : t.NoDirectory place :=
  noDirectory_of_lookUp h.file nofun

/-- A path leads where it led when another file was put there. -/
theorem Leads.put (h : t.Leads path place mode content) (mode' : Nat) (content' : Bytes) :
    (t.put place (.file mode' content')).Leads path place mode' content' where
  way := locate_put h.noDirectory _ h.way
  file := lookUp_put h.noDirectory h.file _

/-- An emptied file keeps its permissions, and a new one is private. -/
theorem leads_of_openEmpty (h : openEmpty path t = .ok now) : ∃ place mode,
    now.Leads path place mode [] ∧ t.Keeps now (some place) ∧
      (mode = privateMode ∨ ∃ content, t.Leads path place mode content) := by
  unfold openEmpty at h
  obtain ⟨target, hway, h⟩ := exists_of_bind_ok h
  split at h
  next => cases h
  next => cases h
  next place =>
    obtain ⟨found, hfound, h⟩ := exists_of_bind_ok h
    split at h
    next => cases h
    next mode content =>
      cases h
      have hleads : t.Leads path place mode content := ⟨hway, hfound⟩
      exact ⟨place, mode, hleads.put mode [], keeps_put hleads.noDirectory _,
        .inr ⟨content, hleads⟩⟩
    next =>
      cases h
      have hplace := noDirectory_of_lookUp hfound nofun
      exact ⟨place, privateMode, ⟨locate_put hplace _ hway, lookUp_put hplace hfound _⟩,
        keeps_put hplace _, .inl rfl⟩

theorem Leads.openEmpty (h : t.Leads path place mode content) :
    openEmpty path t = .ok (t.put place (.file mode [])) := by
  unfold FileTree.openEmpty
  rw [h.way]
  show (t.lookUp place >>= fun found => _) = _
  rw [h.file]
  rfl

theorem Leads.append (h : t.Leads path place mode content) (octets : Bytes) :
    append path octets t = .ok (t.put place (.file mode (content ++ octets))) := by
  unfold FileTree.append
  rw [find_eq_ok_iff.mpr h]
  rfl

theorem Leads.of_setMode (h : t.Leads path place mode content) {mode' : Nat}
    (hset : setMode path mode' t = .ok now) : now = t.put place (.file mode' content) := by
  unfold setMode at hset
  rw [find_eq_ok_iff.mpr h] at hset
  dsimp only [bind, Except.bind] at hset
  split at hset
  next => cases hset
  next =>
    cases hset
    rfl

end Changes

end DevVm.World.FileTree
