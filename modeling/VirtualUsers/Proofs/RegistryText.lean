import VirtualUsers.Proofs.LineEnds
/-!
# The text of a registry

Ids that are written into a registry are read from it again, and in a document that was begun with
an array of ids every later array takes the place of the one before.
-/

namespace VirtualUsers.Registry

open Toml

variable {ids : List String}

/-! ## Documents -/

def document (ids : List String) : Document :=
  [tableHeader [] ['\n'], newEntry [] [usersName] ids]

/-- The document is read as it was written. -/
theorem parse_document (h : ∀ id ∈ ids, id ≠ "") :
    Document.parse? (document ids).text = some (document ids) := by
  have hnone : ∀ c ∈ ([] : List Char), isSpace c = true := by simp
  have hheader : Closed (tableHeader [] ['\n']) := closed_tableHeader hnone endText_nil
  have hentry : Closed (newEntry [] [usersName] ids) := closed_newEntry hnone (.inl rfl) h
  exact (written_closed (by simpa [document] using ⟨hheader, hentry⟩)).parse

theorem meaning_document (ids : List String) :
    (document ids).meaning? = some (.table [(tableName, .table [(usersName, arrayOf ids)])]) := rfl

/-- Later ids take the place of earlier ones. -/
theorem edit_document (ids later : List String) :
    edit later (document ids) = some (document later) := rfl

/-! ## Texts -/

def textOf (ids : List String) : String :=
  String.ofList (document ids).text

theorem read?_textOf (h : ∀ id ∈ ids, id ≠ "") : read? (textOf ids).toList =
    some (.table [(tableName, .table [(usersName, arrayOf ids)])]) := by
  rw [read?, textOf, String.toList_ofList, parse_document h]
  exact meaning_document ids

theorem write_empty (ids : List String) : write ids "" = .ok (textOf ids) := rfl

theorem write_textOf (h : ∀ id ∈ ids, id ≠ "") (later : List String) :
    write later (textOf ids) = .ok (textOf later) := by
  rw [write, textOf, String.toList_ofList, parse_document h]
  simp only [meaning_document, edit_document]
  rfl

/-- An id with nothing that is cut off when it is read. -/
structure Trimmed (id : String) : Prop where
  nonempty : id ≠ ""
  strip : Text.strip id = id

theorem Trimmed.not_blank {id : String} (h : Trimmed id) : Text.blank id = false := by
  cases hblank : Text.blank id with
  | false => rfl
  | true =>
    have hnone : id.toList.dropWhile Text.isBlank = [] :=
      List.dropWhile_eq_nil_iff.mpr (List.all_eq_true.mp hblank)
    have hstrip := h.strip
    rw [Text.strip, Text.stripChars, hnone] at hstrip
    exact absurd hstrip.symm h.nonempty

theorem idsOf_texts (h : ∀ id ∈ ids, Trimmed id) : idsOf (ids.map .text) = ids := by
  induction ids with
  | nil => rfl
  | cons id ids ih =>
    have hid := h id List.mem_cons_self
    rw [List.map_cons, idsOf, List.filterMap_cons]
    simp only [hid.not_blank, hid.strip]
    exact congrArg (id :: ·) (ih fun other hother => h other (List.mem_cons_of_mem id hother))

/-- Ids are read as they were written. -/
theorem read_textOf (h : ∀ id ∈ ids, Trimmed id) : read (textOf ids) = .ok ids := by
  rw [read, read?_textOf fun id hid => (h id hid).nonempty]
  exact congrArg Except.ok (idsOf_texts h)

theorem return_notMem_textOf (ids : List String) : '\r' ∉ (textOf ids).toList := by
  have hunified : Unified (document ids) :=
    unified_cons.mpr ⟨by decide, unified_cons.mpr
      ⟨return_notMem_newEntry List.not_mem_nil (.inl rfl) ids, unified_nil⟩⟩
  rw [textOf, String.toList_ofList]
  exact unified_iff.mp hunified

end VirtualUsers.Registry
