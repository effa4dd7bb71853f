import Mathlib.Data.List.TakeDrop
import VirtualUsers.Proofs.NewLines
import VirtualUsers.Proofs.RegistryPlaces
/-!
# The array in an inline table

The entries of an inline table mean what they would mean as lines of a section. So the array can be
put among them as it can be put into the section of the table, and nothing else changes.
-/

namespace VirtualUsers.Registry

open Toml

variable {ids : List String} {e : InlineEntry} {es : List InlineEntry} {v : Toml}
  {cs m space : List Char} {path : List String}

/-! ## Entries as lines -/

def entryLine (e : InlineEntry) : Line :=
  .entry e.before e.path e.meaning e.written ['\n']

def sectionWith (es : List InlineEntry) : Document :=
  tableHeader [] ['\n'] :: es.map entryLine

theorem inlineMeaning_cons (closed : List (List String)) (entries : List (String × Toml))
    (e : InlineEntry) (es : List InlineEntry) : inlineMeaning closed entries (e :: es) =
      if closed.any (startsWith e.path.dropLast) then none
      else (alter (enterNew e.meaning) e.path entries).bind fun entries =>
        inlineMeaning (if closes e.meaning then e.path :: closed else closed) entries es := by
  rw [inlineMeaning]
  split
  · rfl
  · cases alter (enterNew e.meaning) e.path entries with
    | none => rfl
    | some entries => cases e.meaning <;> rfl

theorem enter_eq (r : Reading) (path : List String) (v : Toml) : r.enter path v =
    if (Reading.waypoints r.section_ path).any r.begun.contains ||
      r.isClosed (r.section_ ++ path).dropLast then none
    else (alter (enterNew v) (r.section_ ++ path) r.entries).map fun entries =>
      { r with
        entries
        closed := if closes v then (r.section_ ++ path) :: r.closed else r.closed
        beginning := Reading.waypoints r.section_ path ++ r.beginning } := by
  simp only [Reading.enter]
  split
  · rfl
  · cases alter (enterNew v) (r.section_ ++ path) r.entries with
    | none => rfl
    | some entries => cases v <;> rfl

theorem any_startsWith_cons (name : String) (path : List String) (paths : List (List String)) :
    (paths.map (name :: ·)).any (startsWith (name :: path)) = paths.any (startsWith path) := by
  rw [List.any_map]
  refine List.any_congr rfl fun p => ?_
  simp [startsWith, List.isPrefixOf]

/-- An entry does in an inline table what its line does in the section of the table. -/
theorem inlineMeaning_lines {r : Reading} {entries : List (String × Toml)}
    {closed : List (List String)} (hsection : r.section_ = [tableName])
    (hbegun : r.begun = [[tableName]]) (hclosed : r.closed = closed.map (tableName :: ·))
    (hentries : r.entries.lookup tableName = some (.table entries)) (es : List InlineEntry) :
    inlineMeaning closed entries es = ((es.map entryLine).foldlM Reading.line r).map
      fun r => .table (tableOf r.entries) := by
  induction es generalizing r entries closed with
  | nil =>
    change some (Toml.table entries) = some (.table (tableOf r.entries))
    rw [tableOf, hentries]
  | cons e es ih =>
    have hline : ((e :: es).map entryLine).foldlM Reading.line r =
        (r.enter e.path e.meaning).bind ((es.map entryLine).foldlM Reading.line) := rfl
    rw [hline, inlineMeaning_cons, enter_eq, hsection]
    have hway : (Reading.waypoints [tableName] e.path).any r.begun.contains = false := by
      rw [List.any_eq_false]
      intro p hp
      have hlength := (mem_waypoints hp).1
      have hne : p ≠ [tableName] := by
        rintro rfl
        exact absurd hlength (Nat.lt_irrefl _)
      simpa [hbegun] using hne
    cases hpath : e.path with
    | nil =>
      have hfull : alter (enterNew e.meaning) ([tableName] ++ []) r.entries = none := by
        rw [List.append_nil, alter_cons, alterAt, hentries]
        rfl
      rw [hfull]
      simp [alter_nil]
    | cons name path =>
      have hinner : tableOf r.entries = entries := by rw [tableOf, hentries]
      have hstop : r.isClosed ([tableName] ++ name :: path).dropLast =
          closed.any (startsWith (name :: path).dropLast) := by
        rw [Reading.isClosed, hclosed]
        exact any_startsWith_cons tableName (name :: path).dropLast closed
      rw [hpath] at hway
      rw [hway, Bool.false_or, hstop]
      split
      · rfl
      · have halter := alter_table (.inr ⟨entries, hentries⟩) (enterNew e.meaning) name path
        rw [hinner] at halter
        change _ = (Option.bind (Option.map _
          (alter (enterNew e.meaning) (tableName :: name :: path) r.entries)) _).map _
        rw [halter]
        cases alter (enterNew e.meaning) (name :: path) entries with
        | none => rfl
        | some entries' =>
          refine ih rfl hbegun ?_ (by rw [lookup_put, if_pos rfl])
          dsimp only
          split
          · rw [hclosed]
            rfl
          · exact hclosed

/-- An inline table means what the section with its entries means. -/
theorem inlineMeaning_section (es : List InlineEntry) : inlineMeaning [] [] es =
    ((sectionWith es).foldlM Reading.line {}).map fun r => .table (tableOf r.entries) := by
  have hheader : (sectionWith es).foldlM Reading.line {} =
      (es.map entryLine).foldlM Reading.line
        ⟨[(tableName, .table [])], [tableName], [[tableName]], [], []⟩ := rfl
  rw [hheader]
  exact inlineMeaning_lines rfl rfl rfl rfl es

/-! ## The array among entries -/

theorem withoutUsers_entryLines (es : List InlineEntry) :
    withoutUsers [tableName] (es.map entryLine) = (withoutInlineUsers es).map entryLine := by
  induction es with
  | nil => rfl
  | cons e es ih =>
    have hconcerns : concerns [tableName] (entryLine e) = startsWith e.path [usersName] := rfl
    have hstep : withoutUsers [tableName] ((e :: es).map entryLine) =
        if concerns [tableName] (entryLine e) then withoutUsers [tableName] (es.map entryLine)
        else entryLine e :: withoutUsers [tableName] (es.map entryLine) := rfl
    rw [hstep, hconcerns, ih, withoutInlineUsers, withoutInlineUsers]
    cases hstart : startsWith e.path [usersName] with
    | true => rw [if_pos rfl, List.filter_cons_of_neg (by simp [hstart])]
    | false => rw [if_neg (by simp), List.filter_cons_of_pos (by simp [hstart]), List.map_cons]

/-- The new entry of the array stands between two parts of the entries. -/
theorem setUsers_eq (ids : List String) (es : List InlineEntry) : ∃ before rest new,
    es = before ++ rest ∧
    setUsers ids es = withoutInlineUsers before ++ new :: withoutInlineUsers rest ∧
    new.path = [usersName] ∧ new.meaning = arrayOf ids ∧ new.written = writeArray [] ids ∧
    ((∃ e ∈ es, new.before = e.before ∧ new.path = e.path ∧ new.after = e.after) ∨
      new.before = "users = ".toList ∧ new.after = []) := by
  have hsplit : es = es.takeWhile (·.path != [usersName]) ++ es.dropWhile (·.path != [usersName]) :=
    List.takeWhile_append_dropWhile.symm
  rw [setUsers, List.span_eq_takeWhile_dropWhile]
  generalize es.takeWhile (·.path != [usersName]) = before at hsplit
  cases hrest : es.dropWhile (·.path != [usersName]) with
  | nil =>
    rw [hrest] at hsplit
    exact ⟨before, [], _, hsplit, rfl, rfl, rfl, rfl, .inr ⟨rfl, rfl⟩⟩
  | cons e rest =>
    have hpath : e.path = [usersName] := by simpa using Text.head_dropWhile hrest
    have hnone : withoutInlineUsers (e :: rest) = withoutInlineUsers rest :=
      List.filter_cons_of_neg (by simp [startsWith, hpath])
    rw [hrest] at hsplit
    refine ⟨before, e :: rest, { e with meaning := arrayOf ids, written := writeArray [] ids },
      hsplit, by rw [hnone], hpath, rfl, rfl, .inl ⟨e, ?_, rfl, rfl, rfl⟩⟩
    rw [hsplit]
    simp

/-- The table with the array in it, and with all else that was in it. -/
theorem inlineMeaning_setUsers (ids : List String) (hkeyed : ∀ e ∈ es, e.path ≠ [])
    (h : inlineMeaning [] [] es = some v) : ∃ inner inner', v = .table inner ∧
      inlineMeaning [] [] (setUsers ids es) = some (.table inner') ∧
      inner'.lookup usersName = some (arrayOf ids) ∧
      ∀ key, key ≠ usersName → inner'.lookup key = inner.lookup key := by
  obtain ⟨before, rest, new, rfl, hset, hpath, hmeaning, -⟩ := setUsers_eq ids es
  rw [inlineMeaning_section] at h
  obtain ⟨r, hr, rfl⟩ := Option.map_eq_some_iff.mp h
  let p : Place := ⟨sectionWith before, [entryLine new], rest.map entryLine⟩
  have hsame : p.before ++ p.rest = sectionWith (before ++ rest) := by simp [p, sectionWith]
  have hsection : Document.sectionOf (sectionWith before) = [tableName] :=
    sectionAfter_body (by simp [entryLine, Line.isHeader]) [tableName]
  have hplace : InSection (arrayOf ids) p := by
    refine ⟨⟨new.before, new.path, new.written, ['\n'], [], ?_, by simp, ?_, ?_⟩, fun hroot => ?_⟩
    · rw [← hmeaning]
      rfl
    · rw [hpath]
      exact List.cons_ne_nil _ _
    · rw [hsection, hpath]
      rfl
    · rw [hsection] at hroot
      cases hroot
  have hspares : Everywhere (Spares false) [] (p.before ++ p.rest) := by
    rw [hsame]
    refine ⟨by rintro (hmany | hopened) <;> contradiction, ?_⟩
    have hlines : ∀ es : List InlineEntry, (∀ e ∈ es, e.path ≠ []) →
        Everywhere (Spares false) [tableName] (es.map entryLine) := by
      intro es
      induction es with
      | nil => exact fun _ => trivial
      | cons e es ih =>
        refine fun h => ⟨?_, ih fun e' he' => h e' (List.mem_cons_of_mem e he')⟩
        intro hone
        exact h e List.mem_cons_self (List.append_cancel_left (hone.trans (List.append_nil _).symm))
    exact hlines _ hkeyed
  obtain ⟨r', hr', hlike⟩ := hplace.fill hspares (hsame ▸ hr)
  refine ⟨tableOf r.entries, tableOf r'.entries, rfl, ?_, hlike.users, hlike.inside⟩
  have hfill : p.fill.foldlM Reading.line {} =
      (sectionWith (setUsers ids (before ++ rest))).foldlM Reading.line {} := by
    have hbefore : withoutUsers [] (sectionWith before) =
        sectionWith (withoutInlineUsers before) := by
      rw [sectionWith, sectionWith, ← withoutUsers_entryLines]
      rfl
    have hrest : withoutUsers (Document.sectionOf (sectionWith before)) (rest.map entryLine) =
        (withoutInlineUsers rest).map entryLine := by
      rw [hsection, withoutUsers_entryLines]
    have hwhole : sectionWith (setUsers ids (before ++ rest)) =
        sectionWith (withoutInlineUsers before) ++ [entryLine new] ++
          (withoutInlineUsers rest).map entryLine := by
      simp [sectionWith, hset]
    rw [hwhole, Place.fill, hbefore, hrest, List.foldlM_append, List.foldlM_append, run_endLast,
      List.foldlM_append, List.foldlM_append]
  rw [inlineMeaning_section, ← hfill, hr']
  rfl

/-! ## Texts -/

theorem mem_withoutInlineUsers (h : e ∈ withoutInlineUsers es) : e ∈ es :=
  (List.mem_filter.mp h).1

theorem entryText_setUsers (h : ∀ e ∈ es, EntryText e) (hids : ∀ id ∈ ids, id ≠ "") :
    ∀ e ∈ setUsers ids es, EntryText e := by
  obtain ⟨before, rest, new, hes, hset, hpath, hmeaning, hwritten, hnew⟩ := setUsers_eq ids es
  have hvalue : ValueText new.written new.meaning := by
    rw [hwritten, hmeaning]
    exact valueText_writeArray (by simp) hids
  have hstart : ∀ c ∈ new.written.head?, isSpace c = false := by
    rw [hwritten]
    exact head_writeArray [] ids
  have htext : EntryText new := by
    rcases hnew with ⟨e, he, hbefore, hsame, hafter⟩ | ⟨hbefore, hafter⟩
    · exact ⟨by rw [hbefore, hsame]; exact (h e he).key, hvalue, hstart,
        by rw [hafter]; exact (h e he).after⟩
    · exact ⟨by rw [hbefore, hpath]; exact keyText_users, hvalue, hstart, by rw [hafter]; simp⟩
  intro e he
  rw [hset] at he
  rcases List.mem_append.mp he with he | he
  · exact h e (hes ▸ List.mem_append_left _ (mem_withoutInlineUsers he))
  · rcases List.mem_cons.mp he with rfl | he
    · exact htext
    · exact h e (hes ▸ List.mem_append_right _ (mem_withoutInlineUsers he))

theorem setUsers_ne_nil (ids : List String) (es : List InlineEntry) : setUsers ids es ≠ [] := by
  obtain ⟨before, rest, new, -, hset, -⟩ := setUsers_eq ids es
  simp [hset]

/-- The entries as they are read once they are written: the white space that was before a comma is
then after it. -/
def respaced (space : List Char) : List InlineEntry → List InlineEntry
  | [] => []
  | [e] => [{ e with before := space ++ e.before }]
  | e :: rest => { e with before := space ++ e.before, after := [] } :: respaced e.after rest

theorem respaced_ne_nil (h : es ≠ []) (space : List Char) : respaced space es ≠ [] := by
  rcases es with _ | ⟨e, _ | ⟨e', es⟩⟩
  · exact absurd rfl h
  · exact List.cons_ne_nil _ _
  · exact List.cons_ne_nil _ _

theorem entriesText_respaced (h : es ≠ []) (space : List Char) :
    entriesText (respaced space es) = space ++ writeInline es ++ ['\x7d'] := by
  induction es generalizing space with
  | nil => exact absurd rfl h
  | cons e es ih =>
    cases es with
    | nil => simp [respaced, entriesText, writeInline]
    | cons e' es =>
      have hothers := ih (List.cons_ne_nil e' es) e.after
      obtain ⟨first, others, hcons⟩ :=
        List.exists_cons_of_ne_nil (respaced_ne_nil (List.cons_ne_nil e' es) e.after)
      rw [hcons] at hothers
      simp [respaced, hcons, entriesText, hothers, writeInline]

theorem EntryText.indent (h : EntryText e) (hspace : ∀ c ∈ space, isSpace c = true) :
    EntryText { e with before := space ++ e.before } :=
  ⟨h.key.indent hspace, h.value, h.start, h.after⟩

theorem entryText_respaced (h : ∀ e ∈ es, EntryText e) (hspace : ∀ c ∈ space, isSpace c = true) :
    ∀ e ∈ respaced space es, EntryText e := by
  induction es generalizing space with
  | nil => simp [respaced]
  | cons e es ih =>
    have he := h e List.mem_cons_self
    have hindent := EntryText.indent he hspace
    cases es with
    | nil => simpa [respaced] using hindent
    | cons e' es =>
      rw [respaced]
      · intro e'' he''
        rcases List.mem_cons.mp he'' with rfl | he''
        · exact ⟨hindent.key, hindent.value, hindent.start, by simp⟩
        · exact ih (fun d hd => h d (List.mem_cons_of_mem e hd)) he.after e'' he''
      · simp

theorem inlineMeaning_respaced (closed : List (List String)) (entries : List (String × Toml))
    (space : List Char) (es : List InlineEntry) :
    inlineMeaning closed entries (respaced space es) = inlineMeaning closed entries es := by
  induction es generalizing closed entries space with
  | nil => rfl
  | cons e es ih =>
    cases es with
    | nil => rw [respaced, inlineMeaning_cons, inlineMeaning_cons]
    | cons e' es =>
      rw [respaced]
      · rw [inlineMeaning_cons, inlineMeaning_cons]
        simp only [ih]
      · simp

/-- An inline table is read with the array in it once it is written. -/
theorem editInline_text (h : ValueText ('\x7b' :: cs) v) (hids : ∀ id ∈ ids, id ≠ "") :
    ∃ inner inner' cs', v = .table inner ∧ editInline ids cs = some (.table inner', cs') ∧
      ValueText ('\x7b' :: cs') (.table inner') ∧ inner'.lookup usersName = some (arrayOf ids) ∧
      ∀ key, key ≠ usersName → inner'.lookup key = inner.lookup key := by
  have hread := h.read (cs.length + 2) [] (by simp) ends_nil
  rw [List.append_nil] at hread
  obtain ⟨⟨es, rest⟩, hentries, hread⟩ := Option.bind_eq_some_iff.mp hread
  obtain ⟨v', hv, hread⟩ := Option.bind_eq_some_iff.mp hread
  obtain ⟨rfl, rfl⟩ := Prod.mk.inj (Option.some.inj hread)
  obtain ⟨m, hcs, htext⟩ := takeInline_text (takeValue_text _) hentries
  have htexts : ∀ e ∈ es, EntryText e := by
    rcases htext with ⟨rfl, -⟩ | ⟨-, htexts, -⟩
    · simp
    · exact htexts
  have hspace : ∀ c ∈ (if es.isEmpty then cs.takeWhile isSpace else []), isSpace c = true := by
    split
    · exact fun c hc => List.mem_takeWhile_imp hc
    · simp
  obtain ⟨inner, inner', rfl, hmeaning, husers, hothers⟩ :=
    inlineMeaning_setUsers ids (fun e he => (htexts e he).key.path_ne_nil) hv
  have hne := setUsers_ne_nil ids es
  generalize hstart : (if es.isEmpty then cs.takeWhile isSpace else []) = space at hspace
  have hnew : InlineText (space ++ writeInline (setUsers ids es) ++ ['\x7d'])
      (respaced space (setUsers ids es)) :=
    .inr ⟨respaced_ne_nil hne _, entryText_respaced (entryText_setUsers htexts hids) hspace,
      (entriesText_respaced hne _).symm⟩
  refine ⟨inner, inner', _, rfl, ?_, hnew.value (by rw [inlineMeaning_respaced, hmeaning]), husers,
    hothers⟩
  rw [editInline, hentries]
  simp only [Option.bind_eq_bind, Option.bind_some, hmeaning, hstart]
  rfl

theorem lineText_edit {make : List Char → Line} {tail end_ before after : List Char}
    (h : LineText make tail) (hl : make end_ = .entry before path v ('\x7b' :: cs) after)
    (hids : ∀ id ∈ ids, id ≠ "") : ∃ inner inner' cs', v = .table inner ∧
      editInline ids cs = some (.table inner', cs') ∧
      LineText (.entry before path (.table inner') ('\x7b' :: cs')) tail ∧ end_ = after ∧
      inner'.lookup usersName = some (arrayOf ids) ∧
      ∀ key, key ≠ usersName → inner'.lookup key = inner.lookup key := by
  cases h with
  | blank | comment | header => cases hl
  | entry hindent hkey htext hvalue hwritten htail =>
    cases hl
    obtain ⟨inner, inner', cs', rfl, hedit, hvalue', husers, hothers⟩ := editInline_text hvalue hids
    refine ⟨inner, inner', cs', rfl, hedit, .entry hindent hkey htext hvalue' ?_ htail, rfl, husers,
      hothers⟩
    rintro c ⟨⟩
    rfl

/-- The array is written into the table of an entry, and the line is as open as before. -/
theorem editValue_text {l : Line} {before after : List Char}
    (hl : l = .entry before path v ('\x7b' :: cs) after) (h : Whole l)
    (hids : ∀ id ∈ ids, id ≠ "") : ∃ inner inner' cs', v = .table inner ∧
      editValue ids l = some (.entry before path (.table inner') ('\x7b' :: cs') after) ∧
      Whole (.entry before path (.table inner') ('\x7b' :: cs') after) ∧
      (Closed l → Closed (.entry before path (.table inner') ('\x7b' :: cs') after)) ∧
      inner'.lookup usersName = some (arrayOf ids) ∧
      ∀ key, key ≠ usersName → inner'.lookup key = inner.lookup key := by
  have hvalue {cs' : List Char} {inner' : List (String × Toml)}
      (hedit : editInline ids cs = some (.table inner', cs')) :
      editValue ids l = some (.entry before path (.table inner') ('\x7b' :: cs') after) := by
    rw [hl, editValue, hedit]
    rfl
  have hclosed (hclosed : Closed l) : ∃ inner inner' cs', v = .table inner ∧
      editInline ids cs = some (.table inner', cs') ∧
      Closed (.entry before path (.table inner') ('\x7b' :: cs') after) ∧
      inner'.lookup usersName = some (arrayOf ids) ∧
      ∀ key, key ≠ usersName → inner'.lookup key = inner.lookup key := by
    obtain ⟨make, tail, htext, hmake⟩ := hclosed
    obtain ⟨inner, inner', cs', hv, hedit, htext', rfl, husers, hothers⟩ :=
      lineText_edit htext (hmake.symm.trans hl) hids
    exact ⟨inner, inner', cs', hv, hedit, ⟨_, tail, htext', rfl⟩, husers, hothers⟩
  rcases h with h | ⟨make, tail, htext, hmake, -⟩
  · obtain ⟨inner, inner', cs', hv, hedit, h', husers, hothers⟩ := hclosed h
    exact ⟨inner, inner', cs', hv, hvalue hedit, .inl h', fun _ => h', husers, hothers⟩
  · obtain ⟨inner, inner', cs', hv, hedit, htext', rfl, husers, hothers⟩ :=
      lineText_edit htext (hmake.symm.trans hl) hids
    refine ⟨inner, inner', cs', hv, hvalue hedit, .inr ⟨_, tail, htext', rfl, by simp [Line.text]⟩,
      fun h => ?_, husers, hothers⟩
    obtain ⟨_, inner'', cs'', -, hedit', h', -⟩ := hclosed h
    obtain ⟨hsame, hcs⟩ := Prod.mk.inj (Option.some.inj (hedit.symm.trans hedit'))
    cases hsame
    rwa [hcs]

end VirtualUsers.Registry
