import VirtualUsers.Files
import VirtualUsers.Proofs.Outcome
/-!
# Files with a text

A file that was written holds its text: its path leads to it, and a new text can be written into it.
No path is moved by that, since only directories are on the way to a place.
-/

namespace VirtualUsers.FileTree

variable {t t' : FileTree} {place : List String} {path text : String} {node : FileNode}

/-! ## Places -/

theorem node?_setNode (h : place ≠ []) (other : List String) :
    (t.setNode place node).node? other = if other = place then some node else t.node? other := by
  cases other with
  | nil => rw [if_neg h.symm]; rfl
  | cons name rest => exact Table.get?_put place (name :: rest) node t.nodes

/-- The place is none of a directory, and not the root. -/
def IsFree (t : FileTree) (place : List String) : Prop :=
  ∀ mode, t.node? place ≠ some (.directory mode)

theorem IsFree.ne_nil (h : t.IsFree place) : place ≠ [] := by
  rintro rfl
  exact h directoryMode rfl

/-- What is put in a free place is on no way to another one. -/
theorem follow_setNode (h : t.IsFree place) {names start target : List String}
    (hfollow : t.follow start names = .ok target) :
    (t.setNode place node).follow start names = .ok target := by
  induction names generalizing start with
  | nil => exact hfollow
  | cons name rest ih =>
    rw [follow] at hfollow
    cases hstart : t.node? start with
    | none =>
      rw [hstart] at hfollow
      cases hfollow
    | some found =>
      cases found with
      | file text mode =>
        rw [hstart] at hfollow
        cases hfollow
      | directory mode =>
        have hne : start ≠ place := by
          rintro rfl
          exact h mode hstart
        rw [hstart] at hfollow
        rw [follow, node?_setNode h.ne_nil, if_neg hne, hstart]
        exact ih hfollow

theorem follow_of_place (h : t.place path = .ok place) :
    t.follow [] (Path.names path) = .ok place := by
  obtain ⟨found, hfollow, h⟩ := bind_eq_ok h
  suffices hsame : found = place from hsame ▸ hfollow
  split at h
  all_goals
    split at h
    · cases h
    · exact Except.ok.inj h

/-- A path that ends in a slash leads to no file. -/
theorem place_of_file {mode : Nat} (hfollow : t.follow [] (Path.names path) = .ok place)
    (hfile : t.node? place = some (.file text mode)) (hslash : path.endsWith "/" = false) :
    t.place path = .ok place := by
  simp only [FileTree.place, hfollow, bind, Except.bind, hfile, hslash]
  rfl

theorem endsWith_of_place {mode : Nat} (h : t.place path = .ok place)
    (hfile : t.node? place = some (.file text mode)) : path.endsWith "/" = false := by
  have hfollow := follow_of_place h
  simp only [FileTree.place, hfollow, bind, Except.bind, hfile] at h
  cases hslash : path.endsWith "/" with
  | false => rfl
  | true =>
    rw [hslash] at h
    cases h

/-! ## Texts -/

def Holds (t : FileTree) (path text : String) : Prop :=
  ∃ place mode, t.place path = .ok place ∧ t.node? place = some (.file text mode)

theorem explain_eq_ok {r : Except FileProblem α} {a : α} (h : explain path r = .ok a) :
    r = .ok a := by
  cases r with
  | error p => cases h
  | ok b => exact congrArg Except.ok (Except.ok.inj h)

/-- The path leads to a free place, where a file is or can be made. -/
def Leads (t : FileTree) (path : String) (place : List String) : Prop :=
  t.place path = .ok place ∧ t.IsFree place ∧ path.endsWith "/" = false

theorem update_eq (h : t.place path = .ok place) (f : String → String) :
    t.update path f = explain path (match t.node? place with
      | some (.file text mode) => .ok (t.setNode place (.file (f text) mode))
      | some (.directory _) => .error .isDirectory
      | none =>
        if path.endsWith "/" then .error .isDirectory
        else .ok (t.setNode place (.file (f "") fileMode))) := by
  rw [update, h]
  rfl

theorem update_file {mode : Nat} (h : t.place path = .ok place)
    (hfile : t.node? place = some (.file text mode)) (f : String → String) :
    t.update path f = .ok (t.setNode place (.file (f text) mode)) := by
  rw [update_eq h, hfile]
  rfl

theorem update_of_leads (h : t.Leads path place) (f : String → String) :
    ∃ text mode, t.update path f = .ok (t.setNode place (.file (f text) mode)) := by
  obtain ⟨hplace, hfree, hslash⟩ := h
  rw [update_eq hplace]
  cases hnode : t.node? place with
  | none =>
    rw [hslash]
    exact ⟨"", fileMode, rfl⟩
  | some found =>
    cases found with
    | file old mode => exact ⟨old, mode, rfl⟩
    | directory mode => exact absurd hnode (hfree mode)

theorem write_of_leads (h : t.Leads path place) (text : String) :
    ∃ mode, t.write path text = .ok (t.setNode place (.file text mode)) := by
  obtain ⟨-, mode, hwrite⟩ := update_of_leads h fun _ => text
  exact ⟨mode, hwrite⟩

theorem leads_of_update {f : String → String} (h : t.update path f = .ok t') :
    ∃ place, t.Leads path place := by
  obtain ⟨place, hplace, -⟩ := bind_eq_ok (explain_eq_ok h)
  rw [update_eq hplace] at h
  refine ⟨place, hplace, fun mode hdirectory => ?_, ?_⟩
  · rw [hdirectory] at h
    cases h
  · cases hnode : t.node? place with
    | none =>
      cases hslash : path.endsWith "/" with
      | false => rfl
      | true =>
        rw [hnode, hslash] at h
        cases h
    | some found =>
      cases found with
      | file old mode => exact endsWith_of_place hplace hnode
      | directory mode =>
        rw [hnode] at h
        cases h

theorem Leads.place_setNode (h : t.Leads path place) (text : String) (mode : Nat) :
    (t.setNode place (.file text mode)).place path = .ok place ∧
      (t.setNode place (.file text mode)).node? place = some (.file text mode) := by
  obtain ⟨hplace, hfree, hslash⟩ := h
  have hnode : (t.setNode place (.file text mode)).node? place = some (.file text mode) := by
    rw [node?_setNode hfree.ne_nil, if_pos rfl]
  exact ⟨place_of_file (follow_setNode hfree (follow_of_place hplace)) hnode hslash, hnode⟩

theorem Leads.holds (h : t.Leads path place) (text : String) (mode : Nat) :
    (t.setNode place (.file text mode)).Holds path text :=
  ⟨place, mode, h.place_setNode text mode⟩

theorem Holds.leads (h : t.Holds path text) : ∃ place, t.Leads path place := by
  obtain ⟨place, mode, hplace, hnode⟩ := h
  refine ⟨place, hplace, fun mode' hdirectory => ?_, endsWith_of_place hplace hnode⟩
  rw [hnode] at hdirectory
  cases hdirectory

/-- Where a text was written, another one can be written. -/
theorem write_again (h : t.write path text = .ok t') (other : String) :
    ∃ made, t.write path other = .ok made ∧ made.Holds path other := by
  obtain ⟨place, hleads⟩ := leads_of_update h
  obtain ⟨mode, hwrite⟩ := write_of_leads hleads other
  exact ⟨_, hwrite, hleads.holds other mode⟩

theorem holds_of_update {f : String → String} (h : t.update path f = .ok t') :
    ∃ text, t'.Holds path text := by
  obtain ⟨place, hleads⟩ := leads_of_update h
  obtain ⟨old, mode, hupdate⟩ := update_of_leads hleads f
  cases h.symm.trans hupdate
  exact ⟨_, hleads.holds (f old) mode⟩

theorem Holds.update (h : t.Holds path text) (f : String → String) :
    ∃ made, t.update path f = .ok made ∧ made.Holds path (f text) := by
  obtain ⟨place, hleads⟩ := h.leads
  obtain ⟨place', mode, hplace, hnode⟩ := h
  cases hleads.1.symm.trans hplace
  exact ⟨_, update_file hplace hnode f, hleads.holds (f text) mode⟩

theorem Holds.write (h : t.Holds path text) (other : String) :
    ∃ made, t.write path other = .ok made ∧ made.Holds path other :=
  h.update fun _ => other

theorem Holds.setMode (h : t.Holds path text) (mode : Nat) :
    (t.setMode path mode).Holds path text := by
  obtain ⟨place, hleads⟩ := h.leads
  obtain ⟨place', mode', hplace, hnode⟩ := h
  rw [FileTree.setMode, hplace]
  simp only [hnode]
  cases hleads.1.symm.trans hplace
  exact hleads.holds text mode

theorem Holds.find? (h : t.Holds path text) :
    ∃ mode, t.find? path = .ok (some (.file text mode)) := by
  obtain ⟨place, mode, hplace, hnode⟩ := h
  exact ⟨mode, by rw [FileTree.find?, hplace]; exact congrArg Except.ok hnode⟩

theorem place_of_find? (h : t.find? path = .ok (some node)) :
    ∃ place, t.place path = .ok place ∧ t.node? place = some node := by
  unfold FileTree.find? at h
  split at h
  · next place hplace => exact ⟨place, hplace, Except.ok.inj h⟩
  · cases h
  · cases h

theorem holds_of_find? {mode : Nat} (h : t.find? path = .ok (some (.file text mode))) :
    t.Holds path text := by
  obtain ⟨place, hplace, hnode⟩ := place_of_find? h
  exact ⟨place, mode, hplace, hnode⟩

/-- A new text is written under the mode that the file has. -/
theorem write_keeps_mode {mode : Nat} (h : t.find? path = .ok (some (.file text mode)))
    (other : String) :
    ∃ made, t.write path other = .ok made ∧ made.find? path = .ok (some (.file other mode)) := by
  obtain ⟨place, hplace, hnode⟩ := place_of_find? h
  obtain ⟨place', hleads⟩ := (holds_of_find? h).leads
  cases hleads.1.symm.trans hplace
  obtain ⟨hplace', hnode'⟩ := hleads.place_setNode other mode
  refine ⟨t.setNode place (.file other mode), update_file hplace hnode _, ?_⟩
  rw [FileTree.find?, hplace']
  exact congrArg Except.ok hnode'

theorem Holds.exists? (h : t.Holds path text) : t.exists? path := by
  obtain ⟨mode, hfind⟩ := h.find?
  rw [FileTree.exists?, hfind]

theorem Holds.read (h : t.Holds path text) : t.read path = .ok text := by
  obtain ⟨place, mode, hplace, hnode⟩ := h
  simp only [FileTree.read, hplace, bind, Except.bind, hnode]
  rfl

theorem unifyLines_eq {cs : List Char} (h : '\r' ∉ cs) : unifyLines cs = cs := by
  induction cs with
  | nil => rfl
  | cons c cs ih =>
    obtain ⟨hc, hcs⟩ := not_or.mp (mt List.mem_cons.mpr h)
    rw [unifyLines, ih hcs]
    · exact fun rest hreturn => absurd hreturn.symm hc
    · exact fun hreturn => hc hreturn.symm

theorem return_notMem_unifyLines (cs : List Char) : '\r' ∉ unifyLines cs := by
  fun_induction unifyLines cs with
  | case1 rest ih => simpa using ih
  | case2 rest _ ih => simpa using ih
  | case3 c rest _ hc ih =>
    rw [List.mem_cons, not_or]
    exact ⟨fun hreturn => hc hreturn.symm, ih⟩
  | case4 => exact List.not_mem_nil

theorem Holds.readLines (h : t.Holds path text) (hreturn : '\r' ∉ text.toList) :
    t.readLines path = .ok text := by
  rw [FileTree.readLines, h.read]
  change Except.ok (String.ofList (unifyLines text.toList)) = _
  rw [unifyLines_eq hreturn, String.ofList_toList]

end VirtualUsers.FileTree
