import VirtualUsers.Proofs.LineEnds
import VirtualUsers.Proofs.TableValues
/-!
# Writing into registries

The array is written into every document that is read, unless it holds something that is no table
under the name of the table. The document that is written is read again, and nothing but the array
changed.
-/

namespace VirtualUsers.Registry

open Toml

variable {ids : List String} {r : Reading} {l : Line} {d before rest : Document} {v : Toml}

/-! ## Lines with a table -/

theorem entryPath?_ne_nil (h : Whole l) : l.entryPath? ≠ some [] := by
  have hmake {make : List Char → Line} {tail m : List Char} (htext : LineText make tail) :
      (make m).entryPath? ≠ some [] := by
    cases htext with
    | blank | comment | header => simp [Line.entryPath?]
    | entry _ _ hkey => exact fun hnil => hkey.path_ne_nil (Option.some.inj hnil)
  rcases h with ⟨make, tail, htext, rfl⟩ | ⟨make, tail, htext, rfl, -⟩
  · exact hmake htext
  · exact hmake htext

theorem valueText_of_whole {start after written : List Char} {path : List String}
    (h : Whole (.entry start path v written after)) : ValueText written v := by
  have hmake {make : List Char → Line} {tail m : List Char} (htext : LineText make tail)
      (hl : .entry start path v written after = make m) : ValueText written v := by
    cases htext with
    | blank | comment | header => cases hl
    | entry _ _ _ hvalue =>
      cases hl
      exact hvalue
  rcases h with ⟨make, tail, htext, hl⟩ | ⟨make, tail, htext, hl, -⟩
  · exact hmake htext hl
  · exact hmake htext hl

/-- A value in place of the table is entered at the top level. -/
theorem enters_table (hd : Written d)
    (hcut : cut (enters [tableName]) [] d = some (before, l, rest)) :
    d = before ++ l :: rest ∧ Document.sectionOf before = [] ∧
      ∃ start v written after, l = .entry start [tableName] v written after := by
  obtain ⟨rfl, htest⟩ := cut_eq_some hcut
  obtain ⟨start, path, v, written, after, rfl, hfull⟩ := enters_eq_true htest
  have hwhole := hd.whole (.entry start path v written after) (by simp)
  have hpath : path ≠ [] := fun hnil => entryPath?_ne_nil hwhole (congrArg some hnil)
  change Document.sectionOf before ++ path = [tableName] at hfull
  obtain ⟨name, path, rfl⟩ := List.exists_cons_of_ne_nil hpath
  cases hsection : Document.sectionOf before with
  | cons first others => simp [hsection] at hfull
  | nil =>
    rw [hsection, List.nil_append] at hfull
    exact ⟨rfl, rfl, start, v, written, after, by rw [hfull]⟩

/-- The table has the value that is entered in its place. -/
theorem enter_table {start written after : List Char} (hsection : r.section_ = [])
    {r₁ : Reading} (hl : r.line (.entry start [tableName] v written after) = some r₁) :
    r₁.entries.lookup tableName = some v ∧ (closes v = true → [tableName] ∈ r₁.closed) ∧
      ∀ w start written after, closes v = true → closes w = true → ∃ entries',
        r.line (.entry start [tableName] w written after) = some { r₁ with entries := entries' } ∧
          Apart v w r₁.entries entries' := by
  obtain ⟨hway, hclosed, entries, halter, rfl⟩ := enter_eq_some hl
  rw [hsection] at hway hclosed halter ⊢
  rw [List.nil_append, alter_cons, alterAt] at halter
  obtain ⟨x, hx, rfl⟩ := Option.map_eq_some_iff.mp halter
  have hnone : r.entries.lookup tableName = none ∧ x = v := by
    cases hlookup : r.entries.lookup tableName with
    | none =>
      rw [hlookup] at hx
      exact ⟨rfl, (Option.some.inj hx).symm⟩
    | some held =>
      rw [hlookup] at hx
      cases hx
  obtain ⟨hnone, rfl⟩ := hnone
  refine ⟨by rw [lookup_put, if_pos rfl], fun hcloses => ?_, fun w start' written' after' hv hw =>
    ⟨alter.put tableName w r.entries, ?_, ?_⟩⟩
  · dsimp only
    rw [if_pos hcloses]
    exact List.mem_cons_self
  · have henter : alter (enterNew w) (r.section_ ++ [tableName]) r.entries =
        some (alter.put tableName w r.entries) := by
      rw [hsection, List.nil_append, alter_cons, alterAt, hnone]
      rfl
    rw [Reading.line, enter_of (by rwa [hsection]) (by rwa [hsection]) henter, hv, hw, hsection]
  · refine ⟨by rw [lookup_put, if_pos rfl], by rw [lookup_put, if_pos rfl], fun key hkey => ?_⟩
    rw [lookup_put, lookup_put, if_neg hkey, if_neg hkey]

/-! ## Documents -/

theorem written_replace {l' : Line} (h : Written (before ++ l :: rest)) (hwhole : Whole l')
    (hclosed : Closed l → Closed l') : Written (before ++ l' :: rest) := by
  obtain ⟨hbefore, hrest⟩ := List.pairwise_append.mp h.closed |>.imp id And.left
  refine ⟨List.pairwise_append.mpr ⟨hbefore, List.pairwise_cons.mpr ⟨fun next hnext => ?_, ?_⟩,
    fun l₀ hl₀ _ _ => ?_⟩, fun l₀ hl₀ => ?_⟩
  · exact hclosed ((List.pairwise_cons.mp hrest).1 next hnext)
  · exact (List.pairwise_cons.mp hrest).2
  · exact (List.pairwise_append.mp h.closed).2.2 l₀ hl₀ l List.mem_cons_self
  · rcases List.mem_append.mp hl₀ with hl₀ | hl₀
    · exact h.whole l₀ (List.mem_append_left _ hl₀)
    · rcases List.mem_cons.mp hl₀ with rfl | hl₀
      · exact hwhole
      · exact h.whole l₀ (List.mem_append_right _ (List.mem_cons_of_mem _ hl₀))

theorem Apart.like {inner inner' : List (String × Toml)} {entries entries' : List (String × Toml)}
    {u : Option Toml} (h : Apart (.table inner) (.table inner') entries entries')
    (husers : inner'.lookup usersName = u)
    (hothers : ∀ key, key ≠ usersName → inner'.lookup key = inner.lookup key) :
    Like u entries entries' where
  room := .inr ⟨inner, h.held⟩
  room' := .inr ⟨inner', h.held'⟩
  outside := h.outside
  inside := by simpa [tableOf, h.held, h.held'] using hothers
  users := by simpa [tableOf, h.held'] using husers

/-- What a document holds that has a line with a value in place of the table. -/
theorem edit_value (hd : Written d) (hr : d.foldlM Reading.line {} = some r)
    (hids : ∀ id ∈ ids, id ≠ "")
    (hcut : cut (enters [tableName]) [] d = some (before, l, rest)) :
    (∃ l' r', editValue ids l = some l' ∧ Written (before ++ l' :: rest) ∧
        (before ++ l' :: rest).foldlM Reading.line {} = some r' ∧
        Like (some (arrayOf ids)) r.entries r'.entries) ∨
      editValue ids l = none ∧ Taken r.entries := by
  obtain ⟨rfl, hroot, start, v, written, after, rfl⟩ := enters_table hd hcut
  obtain ⟨r₀, hbefore, hrest⟩ := foldlM_append hr
  obtain ⟨r₁, hl, hlast⟩ := foldlM_cons hrest
  have hsection : r₀.section_ = [] := (section_run hbefore).trans hroot
  obtain ⟨hheld, hclosed, hother⟩ := enter_table hsection hl
  have hwhole := hd.whole (.entry start [tableName] v written after) (by simp)
  by_cases hbrace : ∃ cs, written = '\x7b' :: cs
  · obtain ⟨cs, rfl⟩ := hbrace
    obtain ⟨inner, inner', cs', rfl, hedit, hwhole', hclosed', husers, hothers⟩ :=
      editValue_text rfl hwhole hids
    obtain ⟨entries', hl', happart⟩ :=
      hother (.table inner') start ('\x7b' :: cs') after rfl rfl
    obtain ⟨r', hrun, hfinal⟩ := happart.run (hclosed rfl) hlast
    refine .inl ⟨_, r', hedit, written_replace hd hwhole' hclosed', ?_, hfinal.like husers hothers⟩
    rw [List.foldlM_append, hbefore, Option.bind_eq_bind, Option.bind_some, List.foldlM_cons, hl']
    exact hrun
  · refine .inr ⟨?_, ?_⟩
    · unfold editValue
      split
      · next heq => exact absurd ⟨_, (Line.entry.inj heq).2.2.2.1⟩ hbrace
      · rfl
    · have htaken : Taken r₁.entries := by
        refine ⟨v, hheld, fun inner htable => hbrace ?_⟩
        exact (htable ▸ valueText_of_whole hwhole).brace
      exact htaken.run hlast

/-- The array can be written into a document if and only if its table can hold it. -/
theorem edit_eq (hd : Written d) (hr : d.foldlM Reading.line {} = some r)
    (hids : ∀ id ∈ ids, id ≠ "") :
    (∃ d' r', edit ids d = some d' ∧ Written d' ∧ d'.foldlM Reading.line {} = some r' ∧
        Like (some (arrayOf ids)) r.entries r'.entries) ∨
      edit ids d = none ∧ Taken r.entries := by
  rw [edit]
  cases hcut : cut (enters [tableName]) [] d with
  | some found =>
    obtain ⟨before, l, rest⟩ := found
    rcases edit_value hd hr hids hcut with ⟨l', r', hedit, hwritten, hr', hlike⟩ | ⟨hedit, htaken⟩
    · exact .inl ⟨_, r', congrArg (Option.map _) hedit, hwritten, hr', hlike⟩
    · exact .inr ⟨congrArg (Option.map _) hedit, htaken⟩
  | none =>
    dsimp only
    cases hitem : d.any (beginsItem [tableName]) with
    | true =>
      obtain ⟨l, hl, hbegins⟩ := List.any_eq_true.mp hitem
      obtain ⟨before, rest, rfl⟩ := List.append_of_mem hl
      obtain ⟨r₀, -, hrest⟩ := foldlM_append hr
      obtain ⟨r₁, hline, hlast⟩ := foldlM_cons hrest
      exact .inr ⟨rfl, (taken_item hline hbegins).run hlast⟩
    | false =>
      obtain ⟨r', hr', hlike⟩ := meaning_place ids (spares_of_cut hcut hitem)
        (fun l hl => entryPath?_ne_nil (hd.whole l hl)) hr
      exact .inl ⟨_, r', rfl, written_place hd hids, hr', hlike⟩

/-! ## Texts -/

theorem read?_eq_some {cs : List Char} {document : Toml} (h : Toml.read? cs = some document) :
    ∃ d r, Document.parse? cs = some d ∧ d.foldlM Reading.line {} = some r ∧
      document = .table r.entries := by
  obtain ⟨d, hparse, hmeaning⟩ := Option.bind_eq_some_iff.mp h
  obtain ⟨r, hr, hdocument⟩ := Option.map_eq_some_iff.mp hmeaning
  exact ⟨d, r, hparse, hr, hdocument.symm⟩

/-- The texts differ in nothing but the array, which has the given ids in the second one. -/
structure Rewrites (ids : List String) (document document' : Toml) : Prop where
  users : (document'.get? tableName).bind (Toml.get? usersName) = some (arrayOf ids)
  inside : ∀ key, key ≠ usersName → (document'.get? tableName).bind (Toml.get? key) =
    (document.get? tableName).bind (Toml.get? key)
  outside : ∀ key, key ≠ tableName → document'.get? key = document.get? key

theorem get?_table (entries : List (String × Toml)) (h : HasRoom entries) (key : String) :
    ((Toml.table entries).get? tableName).bind (Toml.get? key) =
      (tableOf entries).lookup key := by
  have hget : (Toml.table entries).get? tableName = entries.lookup tableName := rfl
  rw [hget, tableOf]
  rcases h with h | ⟨inner, h⟩
  · rw [h]
    rfl
  · rw [h]
    rfl

theorem Like.rewrites {entries entries' : List (String × Toml)}
    (h : Like (some (arrayOf ids)) entries entries') :
    Rewrites ids (.table entries) (.table entries') where
  users := by rw [get?_table entries' h.room', h.users]
  inside key hkey := by
    rw [get?_table entries' h.room', get?_table entries h.room, h.inside key hkey]
  outside := h.outside

def HoldsTable (document : Toml) : Prop :=
  ∀ v, document.get? tableName = some v → ∃ inner, v = .table inner

/-- Ids are written into every registry that can be read, unless it holds something that is no table
under the name of the table. -/
theorem write_read {text : String} {document : Toml} (h : Toml.read? text.toList = some document)
    (hreturn : '\r' ∉ text.toList) (hids : ∀ id ∈ ids, id ≠ "") :
    (HoldsTable document ∧ ∃ text' document', write ids text = .ok text' ∧ '\r' ∉ text'.toList ∧
        Toml.read? text'.toList = some document' ∧ Rewrites ids document document') ∨
      ¬HoldsTable document ∧ write ids text = .error .wrongType := by
  obtain ⟨d, r, hparse, hr, rfl⟩ := read?_eq_some h
  obtain ⟨htext, hd⟩ := written_of_parse hparse
  have hmeaning : d.meaning? = some (.table r.entries) := congrArg (Option.map _) hr
  have hsome : ∀ d', edit ids d = some d' → write ids text = .ok (String.ofList d'.text) := by
    intro d' hedit
    rw [write, hparse]
    dsimp only
    rw [hmeaning, hedit]
    rfl
  have hnone : edit ids d = none → write ids text = .error .wrongType := by
    intro hedit
    rw [write, hparse]
    dsimp only
    rw [hmeaning, hedit]
    rfl
  rcases edit_eq hd hr hids with ⟨d', r', hedit, hd', hr', hlike⟩ | ⟨hedit, v, hv, htable⟩
  · refine .inl ⟨fun v hv => ?_, String.ofList d'.text, .table r'.entries, hsome d' hedit, ?_, ?_,
      hlike.rewrites⟩
    · rcases hlike.room with habsent | ⟨inner, hinner⟩
      · cases habsent.symm.trans hv
      · exact ⟨inner, Option.some.inj (hv.symm.trans hinner)⟩
    · rw [String.toList_ofList]
      rw [← htext] at hreturn
      exact unified_iff.mp (Unified.edit (unified_iff.mpr hreturn) hedit)
    · rw [String.toList_ofList, Toml.read?, hd'.parse]
      exact congrArg (Option.map _) hr'
  · refine .inr ⟨fun hholds => ?_, hnone hedit⟩
    obtain ⟨inner, hinner⟩ := hholds v hv
    exact htable inner hinner

end VirtualUsers.Registry
