import VirtualUsers.Proofs.NewLines
import VirtualUsers.Proofs.RegistryPlaces
/-!
# Texts of filled places

A document with the array in its place is read as it is written: the lines around the array were
read before, and those that are new have line ends where others follow.
-/

namespace VirtualUsers.Registry

open Toml

variable {ids : List String} {l : Line} {d before rest : Document}

theorem written_split (h : Written (before ++ rest)) : Written before ∧ Written rest :=
  ⟨h.sublist (List.sublist_append_left before rest),
    h.sublist (List.sublist_append_right before rest)⟩

/-- A line with others after it has a line end. -/
theorem closed_of_written (h : Written (before ++ l :: rest)) (hrest : rest ≠ []) : Closed l := by
  obtain ⟨next, rest, rfl⟩ := List.exists_cons_of_ne_nil hrest
  exact (List.pairwise_cons.mp (written_split h).2.closed).1 next List.mem_cons_self

theorem closed_gap (d : Document) : ∀ l ∈ gap d, Closed l := by
  have hblank : Closed (.blank ([] ++ ['\n'])) := closed_blank (by simp)
  unfold gap
  split
  · split
    · simpa using hblank
    · simp
  · simp

theorem isSpace_openBlank (h : Written d) : ∀ c ∈ (openBlank d).2, isSpace c = true := by
  unfold openBlank
  split
  · next cs hlast =>
    split
    · simp
    · next hline =>
      exact isSpace_blank (h.whole _ (List.mem_of_getLast? hlast)) (by simpa using hline)
  · simp

/-- Wherever the array is put, the document is read as it is written. -/
theorem written_place (h : Written d) (hids : ∀ id ∈ ids, id ≠ "") :
    Written (place ids d).fill := by
  have hnone : ∀ c ∈ ([] : List Char), isSpace c = true := by simp
  have hentry : Closed (newEntry [] [usersName] ids) := closed_newEntry hnone (.inl rfl) hids
  have hplaced := placed ids d
  generalize place ids d = p at hplaced ⊢
  cases hplaced with
  | @inEntry before rest l hcut =>
    obtain ⟨rfl, -⟩ := cut_eq_some hcut
    have hsplit : Written (before ++ [l] ++ rest) := by simpa using h
    have hl : Whole l := h.whole l (by simp)
    refine Place.written (written_split hsplit).1 (written_split hsplit).2 ?_
    by_cases hrest : rest = []
    · exact .inr ⟨⟨List.pairwise_singleton _ _, by simpa using whole_refill hl hids⟩, hrest⟩
    · exact .inl (by simpa using closed_refill (closed_of_written h hrest) hids)
  | @inSection before rest header hcut =>
    obtain ⟨hd, -⟩ := place_section ids hcut
    have hsplit := written_split (hd ▸ h)
    refine Place.written hsplit.1 hsplit.2 (.inl ?_)
    rw [placeInSection]
    dsimp only
    rw [List.forall_mem_cons]
    exact ⟨closed_newEntry (isSpace_indentOf header) (.inl rfl) hids, closed_gap _⟩
  | @atPoint before rest l hcut =>
    obtain ⟨test, hcut⟩ := cutPointed_eq_some hcut
    obtain ⟨rfl, -⟩ := cut_eq_some hcut
    have hsplit : Written (before ++ [l] ++ rest) := by simpa using h
    refine Place.written (written_split hsplit).1 (written_split hsplit).2 (.inl ?_)
    simpa using closed_newEntry hnone (.inr rfl) hids
  | @beforeFirst before rest first _ _ hcut =>
    obtain ⟨rfl, -⟩ := cut_eq_some hcut
    obtain ⟨hbefore, hrest⟩ := written_split h
    obtain ⟨tail, htail, hend⟩ := headerEnd_text (h.whole first (by simp))
    refine Place.written hbefore hrest (.inl ?_)
    rw [placeBefore]
    dsimp only
    rw [hend, List.forall_mem_cons, List.forall_mem_cons]
    exact ⟨closed_tableHeader hnone htail, hentry, closed_gap _⟩
  | atEnd =>
    have hbefore : Written (openBlank d).1 := by
      obtain ⟨tail, htail, -⟩ := openBlank_append d
      rw [htail] at h
      exact (written_split h).1
    have hindent := isSpace_openBlank h
    have hnil : Written [] := written_closed (by simp)
    have hheader {indent : List Char} (hindent : ∀ c ∈ indent, isSpace c = true) :
        Closed (tableHeader indent ['\n']) := closed_tableHeader hindent endText_nil
    unfold placeAtEnd
    dsimp only
    split
    · refine Place.written hbefore hnil (.inl ?_)
      simpa using ⟨hheader hindent, hentry⟩
    · refine Place.written hbefore hnil (.inl ?_)
      split
      · simpa using ⟨hheader hnone, hentry⟩
      · simpa using ⟨closed_blank hindent, hheader hnone, hentry⟩

end VirtualUsers.Registry
