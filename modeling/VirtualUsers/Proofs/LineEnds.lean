import VirtualUsers.Proofs.InlineTables
import VirtualUsers.Proofs.PlaceTexts
/-!
# Line ends in registries

No carriage return gets into a document with the array: what is kept has none, and in an id each has
an escape. So the line ends of the file stay as they are when it is read again.
-/

namespace VirtualUsers.Registry

open Toml

variable {ids : List String} {l : Line} {d before rest : Document} {cs : List Char}

def Unified (d : Document) : Prop :=
  ∀ l ∈ d, '\r' ∉ l.text

theorem unified_iff : Unified d ↔ '\r' ∉ d.text := by
  simp [Unified, Document.text]

theorem return_notMem_space (h : ∀ c ∈ cs, isSpace c = true) : '\r' ∉ cs :=
  fun hmem => absurd (h _ hmem) (by decide)

theorem return_notMem_writeArray {indent : List Char} (h : '\r' ∉ indent) (ids : List String) :
    '\r' ∉ writeArray indent ids := by
  simp [writeArray, h, return_notMem_writeString]

/-! ## New lines -/

theorem return_notMem_newEntry {indent : List Char} (h : '\r' ∉ indent) {path : List String}
    (hpath : path = [usersName] ∨ path = usersPath) (ids : List String) :
    '\r' ∉ (newEntry indent path ids).text := by
  have hkey : '\r' ∉ (".".intercalate path ++ " = ").toList := by
    rcases hpath with rfl | rfl <;> decide
  have harray := return_notMem_writeArray h ids
  simp only [newEntry, Line.text, List.mem_append, not_or]
  exact ⟨⟨⟨h, hkey⟩, harray⟩, by decide⟩

theorem return_notMem_refill (h : '\r' ∉ l.text) (ids : List String) :
    '\r' ∉ (refill ids l).text := by
  cases l with
  | blank | comment | header => exact h
  | entry before path v written after =>
    simp only [Line.text, List.mem_append, not_or] at h
    have hspace : '\r' ∉ before.takeWhile isSpace :=
      return_notMem_space fun c hc => List.mem_takeWhile_imp hc
    have harray := return_notMem_writeArray hspace ids
    simp only [refill, Line.text, List.mem_append, not_or]
    exact ⟨⟨h.1.1, harray⟩, h.2⟩

theorem return_notMem_withEnd (h : '\r' ∉ cs) : '\r' ∉ withEnd cs := by
  unfold withEnd
  split
  · exact h
  · simpa using h

theorem return_notMem_endLine (h : '\r' ∉ l.text) : '\r' ∉ (endLine l).text := by
  cases l with
  | blank | comment => exact return_notMem_withEnd h
  | entry | header =>
    simp only [Line.text, List.mem_append, not_or] at h
    simp only [endLine, Line.text, List.mem_append, not_or]
    exact ⟨h.1, return_notMem_withEnd h.2⟩

theorem return_notMem_headerEnd (h : '\r' ∉ l.text) : '\r' ∉ headerEnd l := by
  cases l with
  | blank | comment | entry =>
    change '\r' ∉ ['\n']
    decide
  | header =>
    simp only [Line.text, List.mem_append, not_or] at h
    exact return_notMem_withEnd h.2

theorem return_notMem_tableHeader {indent after : List Char} (hindent : '\r' ∉ indent)
    (hafter : '\r' ∉ after) : '\r' ∉ (tableHeader indent after).text := by
  simp only [tableHeader, Line.text, List.mem_append, not_or]
  exact ⟨⟨hindent, by decide⟩, hafter⟩

theorem unified_gap (d : Document) : Unified (gap d) := by
  have hblank : Unified [.blank ['\n']] := unified_iff.mpr (by decide)
  unfold gap
  split
  · split
    · exact hblank
    · simp [Unified]
  · simp [Unified]

/-! ## Documents -/

theorem unified_nil : Unified [] :=
  fun _ hl => absurd hl List.not_mem_nil

theorem unified_append {d' : Document} : Unified (d ++ d') ↔ Unified d ∧ Unified d' := by
  simp [Unified, or_imp, forall_and]

theorem unified_cons : Unified (l :: d) ↔ '\r' ∉ l.text ∧ Unified d :=
  List.forall_mem_cons

theorem Unified.sublist {d' : Document} (h : Unified d) (hd : List.Sublist d' d) : Unified d' :=
  fun l hl => h l (hd.subset hl)

theorem Unified.endLast (h : Unified d) : Unified (endLast d) := by
  unfold Registry.endLast
  split
  · next l hlast =>
    refine unified_append.mpr ⟨h.sublist (List.dropLast_sublist d), ?_⟩
    exact unified_cons.mpr ⟨return_notMem_endLine (h l (List.mem_of_getLast? hlast)),
      unified_nil⟩
  · exact h

theorem Place.unified {p : Place} (hbefore : Unified p.before) (hnew : Unified p.new)
    (hrest : Unified p.rest) : Unified p.fill := by
  refine unified_append.mpr ⟨unified_append.mpr ⟨Unified.endLast ?_, hnew⟩, ?_⟩
  · exact hbefore.sublist (withoutUsers_sublist [] p.before)
  · exact hrest.sublist (withoutUsers_sublist _ p.rest)

theorem unified_place (h : Unified d) (ids : List String) : Unified (place ids d).fill := by
  have hnone : '\r' ∉ ([] : List Char) := List.not_mem_nil
  have hentry : '\r' ∉ (newEntry [] [usersName] ids).text :=
    return_notMem_newEntry hnone (.inl rfl) ids
  have hplaced := placed ids d
  generalize place ids d = p at hplaced ⊢
  cases hplaced with
  | inEntry hcut =>
    obtain ⟨rfl, -⟩ := cut_eq_some hcut
    obtain ⟨hbefore, hrest⟩ := unified_append.mp h
    obtain ⟨hl, hrest⟩ := unified_cons.mp hrest
    exact Place.unified (unified_append.mpr ⟨hbefore, unified_cons.mpr ⟨hl, unified_nil⟩⟩)
      (unified_cons.mpr ⟨return_notMem_refill hl ids, unified_nil⟩) hrest
  | @inSection before rest header hcut =>
    obtain ⟨hd, -⟩ := place_section ids hcut
    obtain ⟨hbefore, hrest⟩ := unified_append.mp (hd ▸ h)
    have hindent := return_notMem_space (isSpace_indentOf header)
    exact Place.unified hbefore (unified_cons.mpr
      ⟨return_notMem_newEntry hindent (.inl rfl) ids, unified_gap _⟩) hrest
  | atPoint hcut =>
    obtain ⟨test, hcut⟩ := cutPointed_eq_some hcut
    obtain ⟨rfl, -⟩ := cut_eq_some hcut
    obtain ⟨hbefore, hrest⟩ := unified_append.mp h
    obtain ⟨hl, hrest⟩ := unified_cons.mp hrest
    exact Place.unified (unified_append.mpr ⟨hbefore, unified_cons.mpr ⟨hl, unified_nil⟩⟩)
      (unified_cons.mpr ⟨return_notMem_newEntry hnone (.inr rfl) ids, unified_nil⟩) hrest
  | beforeFirst _ _ hcut =>
    obtain ⟨rfl, -⟩ := cut_eq_some hcut
    obtain ⟨hbefore, hrest⟩ := unified_append.mp h
    have hend := return_notMem_headerEnd (unified_cons.mp hrest).1
    exact Place.unified hbefore (unified_cons.mpr ⟨return_notMem_tableHeader hnone hend,
      unified_cons.mpr ⟨hentry, unified_gap _⟩⟩) hrest
  | atEnd =>
    have hopen : Unified (openBlank d).1 ∧ '\r' ∉ (openBlank d).2 := by
      unfold openBlank
      split
      · next cs hlast =>
        split
        · exact ⟨h, hnone⟩
        · exact ⟨h.sublist (List.dropLast_sublist d), h _ (List.mem_of_getLast? hlast)⟩
      · exact ⟨h, hnone⟩
    have hheader {indent : List Char} (hindent : '\r' ∉ indent) :
        Unified [tableHeader indent ['\n'], newEntry [] [usersName] ids] :=
      unified_cons.mpr ⟨return_notMem_tableHeader hindent (by decide),
        unified_cons.mpr ⟨hentry, unified_nil⟩⟩
    unfold placeAtEnd
    dsimp only
    split
    · exact Place.unified hopen.1 (hheader hopen.2) unified_nil
    · refine Place.unified hopen.1 (unified_append.mpr ⟨?_, hheader hnone⟩) unified_nil
      split
      · exact unified_nil
      · refine unified_cons.mpr ⟨?_, unified_nil⟩
        simpa [Line.text] using hopen.2

/-! ## Inline tables -/

def entryChars (e : InlineEntry) : List Char :=
  e.before ++ e.written ++ e.after

theorem return_notMem_entries {es : List InlineEntry} (h : '\r' ∉ entriesText es) :
    ∀ e ∈ es, '\r' ∉ entryChars e := by
  induction es with
  | nil => simp
  | cons e es ih =>
    cases es with
    | nil =>
      simp only [entriesText, List.mem_append, not_or] at h
      simpa [entryChars] using ⟨h.1, h.2.1, h.2.2.1⟩
    | cons second es =>
      simp only [entriesText, List.mem_append, List.mem_cons, not_or] at h
      obtain ⟨hbefore, hwritten, hafter, -, hothers⟩ := h
      rw [List.forall_mem_cons]
      refine ⟨?_, ih (by simpa [entriesText] using hothers)⟩
      simp [entryChars, hbefore, hwritten, hafter]

theorem return_notMem_writeInline {es : List InlineEntry} (h : ∀ e ∈ es, '\r' ∉ entryChars e) :
    '\r' ∉ writeInline es := by
  induction es with
  | nil => exact List.not_mem_nil
  | cons e es ih =>
    obtain ⟨he, hothers⟩ := List.forall_mem_cons.mp h
    cases es with
    | nil => exact he
    | cons second es =>
      have hrest := ih hothers
      simp only [entryChars, List.mem_append, not_or] at he
      rw [writeInline]
      · simp [he.1.1, he.1.2, he.2, hrest]
      · simp

theorem return_notMem_setUsers {es : List InlineEntry} (h : ∀ e ∈ es, '\r' ∉ entryChars e)
    (ids : List String) : ∀ e ∈ setUsers ids es, '\r' ∉ entryChars e := by
  obtain ⟨before, rest, new, rfl, hset, -, -, hwritten, hnew⟩ := setUsers_eq ids es
  obtain ⟨hbefore, hrest⟩ := List.forall_mem_append.mp h
  have harray : '\r' ∉ new.written := by
    rw [hwritten]
    exact return_notMem_writeArray List.not_mem_nil ids
  have hother : '\r' ∉ new.before ∧ '\r' ∉ new.after := by
    rcases hnew with ⟨e, he, hsame, -, hafter⟩ | ⟨hsame, hafter⟩
    · have hchars := h e he
      simp only [entryChars, List.mem_append, not_or] at hchars
      exact ⟨hsame ▸ hchars.1.1, hafter ▸ hchars.2⟩
    · rw [hsame, hafter]
      decide
  rw [hset, List.forall_mem_append, List.forall_mem_cons]
  refine ⟨fun e he => hbefore e (mem_withoutInlineUsers he), ?_,
    fun e he => hrest e (mem_withoutInlineUsers he)⟩
  simp [entryChars, hother.1, harray, hother.2]

theorem return_notMem_editInline {v : Toml} {cs' : List Char} (h : '\r' ∉ cs)
    (hedit : editInline ids cs = some (v, cs')) : '\r' ∉ cs' := by
  obtain ⟨⟨es, rest⟩, hentries, hedit⟩ := Option.bind_eq_some_iff.mp hedit
  obtain ⟨v', -, hedit⟩ := Option.bind_eq_some_iff.mp hedit
  obtain ⟨-, rfl⟩ := Prod.mk.inj (Option.some.inj hedit)
  obtain ⟨m, rfl, htext⟩ := takeInline_text (takeValue_text _) hentries
  have hes : ∀ e ∈ es, '\r' ∉ entryChars e := by
    rcases htext with ⟨rfl, -⟩ | ⟨-, -, rfl⟩
    · simp
    · exact return_notMem_entries fun hmem => h (List.mem_append_left _ hmem)
  have hstart : '\r' ∉ (if es.isEmpty then (m ++ rest).takeWhile isSpace else []) := by
    split
    · exact fun hmem => h ((List.takeWhile_sublist _).subset hmem)
    · exact List.not_mem_nil
  have hwritten := return_notMem_writeInline (return_notMem_setUsers hes ids)
  simp only [List.mem_append, not_or]
  exact ⟨⟨hstart, hwritten⟩, by decide⟩

theorem return_notMem_editValue {l' : Line} (h : '\r' ∉ l.text)
    (hedit : editValue ids l = some l') : '\r' ∉ l'.text := by
  unfold editValue at hedit
  split at hedit
  · next before path v cs after =>
    obtain ⟨⟨v', cs'⟩, hinline, hedit⟩ := Option.bind_eq_some_iff.mp hedit
    cases hedit
    simp only [Line.text, List.mem_append, List.mem_cons, not_or] at h ⊢
    exact ⟨⟨h.1.1, h.1.2.1, return_notMem_editInline h.1.2.2 hinline⟩, h.2⟩
  · cases hedit

theorem Unified.edit {d' : Document} (h : Unified d) (hedit : edit ids d = some d') :
    Unified d' := by
  unfold Registry.edit at hedit
  split at hedit
  · next before l rest hcut =>
    obtain ⟨l', hvalue, rfl⟩ := Option.map_eq_some_iff.mp hedit
    obtain ⟨rfl, -⟩ := cut_eq_some hcut
    obtain ⟨hbefore, hrest⟩ := unified_append.mp h
    obtain ⟨hl, hrest⟩ := unified_cons.mp hrest
    exact unified_append.mpr ⟨hbefore, unified_cons.mpr ⟨return_notMem_editValue hl hvalue, hrest⟩⟩
  · split at hedit
    · cases hedit
    · cases hedit
      exact unified_place h ids

end VirtualUsers.Registry
