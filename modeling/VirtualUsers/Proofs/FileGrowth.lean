import VirtualUsers.Proofs.FileTexts
/-!
# File trees that grow

Directories that are made, texts that are written and modes that are set take nothing away: what was
a file or a directory stays one. So a path that leads to a file goes on to lead to it.
-/

namespace VirtualUsers

def FileNode.isFile : FileNode → Bool
  | .file .. => true
  | .directory _ => false

namespace FileTree

variable {t t' t'' : FileTree} {place start target : List String} {path text : String}
  {node : FileNode} {names : List String}

/-- Files stay files and directories stay directories, whatever their texts and modes. -/
def Grows (t t' : FileTree) : Prop :=
  ∀ place node, t.node? place = some node →
    ∃ node', t'.node? place = some node' ∧ node'.isFile = node.isFile

theorem Grows.refl (t : FileTree) : Grows t t :=
  fun _ node h => ⟨node, h, rfl⟩

theorem Grows.trans (h : Grows t t') (h' : Grows t' t'') : Grows t t'' := by
  intro place node hnode
  obtain ⟨node', hnode', hsame⟩ := h place node hnode
  obtain ⟨node'', hnode'', hsame'⟩ := h' place node' hnode'
  exact ⟨node'', hnode'', hsame'.trans hsame⟩

theorem Grows.directory (h : Grows t t') {mode : Nat}
    (hnode : t.node? place = some (.directory mode)) :
    ∃ mode', t'.node? place = some (.directory mode') := by
  obtain ⟨node', hnode', hsame⟩ := h _ _ hnode
  cases node' with
  | file text mode => cases hsame
  | directory mode' => exact ⟨mode', hnode'⟩

theorem Grows.file (h : Grows t t') {mode : Nat} (hnode : t.node? place = some (.file text mode)) :
    ∃ text' mode', t'.node? place = some (.file text' mode') := by
  obtain ⟨node', hnode', hsame⟩ := h _ _ hnode
  cases node' with
  | file text' mode' => exact ⟨text', mode', hnode'⟩
  | directory mode => cases hsame

/-! ## Changes -/

/-- A place that nothing is at, or the same kind of thing, is filled. -/
theorem grows_setNode (hne : place ≠ [])
    (h : ∀ found, t.node? place = some found → found.isFile = node.isFile) :
    Grows t (t.setNode place node) := by
  intro other found hfound
  rw [node?_setNode hne]
  split
  · next heq =>
    subst heq
    exact ⟨node, rfl, (h found hfound).symm⟩
  · exact ⟨found, hfound, rfl⟩

theorem ne_nil_of_file {mode : Nat} (h : t.node? place = some (.file text mode)) : place ≠ [] := by
  rintro rfl
  cases h

theorem ne_nil_of_none (h : t.node? place = none) : place ≠ [] := by
  rintro rfl
  cases h

theorem grows_setNode_file {mode : Nat} (h : t.node? place = some (.file text mode))
    (text' : String) (mode' : Nat) : Grows t (t.setNode place (.file text' mode')) :=
  grows_setNode (ne_nil_of_file h) fun found hfound => by
    cases h.symm.trans hfound
    rfl

theorem grows_setNode_none (h : t.node? place = none) (node : FileNode) :
    Grows t (t.setNode place node) :=
  grows_setNode (ne_nil_of_none h) fun found hfound => by
    rw [h] at hfound
    cases hfound

theorem grows_update {f : String → String} (h : t.update path f = .ok t') : Grows t t' := by
  obtain ⟨place, hplace, -⟩ := bind_eq_ok (explain_eq_ok h)
  rw [update_eq hplace] at h
  cases hnode : t.node? place with
  | none =>
    rw [hnode] at h
    cases hslash : path.endsWith "/" with
    | true =>
      rw [hslash] at h
      cases h
    | false =>
      rw [hslash] at h
      cases h
      exact grows_setNode_none hnode _
  | some found =>
    rw [hnode] at h
    cases found with
    | file text mode =>
      cases h
      exact grows_setNode_file hnode _ _
    | directory mode => cases h

theorem grows_setMode (t : FileTree) (path : String) (mode : Nat) :
    Grows t (t.setMode path mode) := by
  unfold setMode
  split
  · exact .refl t
  · next place hplace =>
    split
    · next text mode' hnode => exact grows_setNode_file hnode _ _
    · next mode' hnode =>
      split
      · exact .refl t
      · next hne =>
        refine grows_setNode (fun hnil => hne (by rw [hnil]; rfl)) fun found hfound => ?_
        cases hnode.symm.trans hfound
        rfl
    · exact .refl t

theorem grows_makeFrom (h : t.makeFrom start names = .ok t') : Grows t t' := by
  induction names generalizing t start with
  | nil =>
    cases h
    exact .refl _
  | cons name rest ih =>
    rw [makeFrom] at h
    split at h
    · exact ih h
    · cases h
    · next hnode => exact (grows_setNode_none hnode _).trans (ih h)

theorem grows_makeDirectory (h : t.makeDirectory path = .ok t') : Grows t t' :=
  grows_makeFrom (explain_eq_ok h)

/-! ## Paths -/

theorem Grows.follow (h : Grows t t') (hfollow : t.follow start names = .ok target) :
    t'.follow start names = .ok target := by
  induction names generalizing start with
  | nil => exact hfollow
  | cons name rest ih =>
    rw [FileTree.follow] at hfollow ⊢
    cases hstart : t.node? start with
    | none =>
      rw [hstart] at hfollow
      cases hfollow
    | some found =>
      rw [hstart] at hfollow
      cases found with
      | file text mode => cases hfollow
      | directory mode =>
        obtain ⟨mode', hstart'⟩ := h.directory hstart
        rw [hstart']
        exact ih hfollow

/-- A path that leads to a file goes on to do so. -/
theorem Grows.holds (h : Grows t t') (hholds : t.Holds path text) :
    ∃ text', t'.Holds path text' := by
  obtain ⟨place, mode, hplace, hnode⟩ := hholds
  obtain ⟨text', mode', hnode'⟩ := h.file hnode
  have hplace' := place_of_file (h.follow (follow_of_place hplace)) hnode'
    (endsWith_of_place hplace hnode)
  exact ⟨text', place, mode', hplace', hnode'⟩

end FileTree

end VirtualUsers
