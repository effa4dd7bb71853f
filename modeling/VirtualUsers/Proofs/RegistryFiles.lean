import VirtualUsers.Proofs.Localparts
import VirtualUsers.Proofs.RegistryWrites
import VirtualUsers.Proofs.Restarts
/-!
# Registry files

A bridge starts with a registry file that it can read, and users are marked. As long as the file
holds nothing but a table under the name of the table, they are kept in it, and all else in the file
stays. A value of another kind is read as a registry without users, but no user can be put into it.
-/

namespace VirtualUsers

namespace Registry

variable {path : String} {mode : Nat} {files : FileTree} {document : Toml} {ids : List String}

/-! ## Ids that are read -/

theorem trimmed_strip {s : String} (h : Text.blank s = false) : Trimmed (Text.strip s) := by
  have hstripped := Text.isStripped_stripChars s.toList
  refine ⟨fun hempty => ?_, ?_⟩
  · have hnil : Text.stripChars s.toList = [] := String.ofList_eq_empty_iff.mp hempty
    have hall : ∀ c ∈ s.toList.dropWhile Text.isBlank, Text.isBlank c = true := by
      rw [Text.stripChars, Text.dropRight, List.reverse_eq_nil_iff,
        List.dropWhile_eq_nil_iff] at hnil
      simpa using hnil
    cases hfront : s.toList.dropWhile Text.isBlank with
    | nil =>
      rw [Text.blank, List.all_eq_true.mpr (List.dropWhile_eq_nil_iff.mp hfront)] at h
      cases h
    | cons c rest =>
      have hc : Text.isBlank c = false := Text.head_dropWhile hfront
      rw [hall c (by rw [hfront]; exact List.mem_cons_self)] at hc
      cases hc
  · rw [Text.strip, Text.strip, String.toList_ofList, hstripped.stripChars]

theorem trimmed_idsOf {items : List Toml} {id : String} (h : id ∈ idsOf items) : Trimmed id := by
  obtain ⟨item, -, hitem⟩ := List.mem_filterMap.mp h
  split at hitem
  · split at hitem
    · cases hitem
    · next hblank =>
      cases hitem
      exact trimmed_strip (by simpa using hblank)
  · cases hitem

theorem trimmed_users {id : String} (h : id ∈ users document) : Trimmed id := by
  unfold users at h
  split at h
  · exact trimmed_idsOf h
  · cases h

/-! ## Files that are read -/

def Reads (files : FileTree) (path : String) (mode : Nat) (document : Toml) : Prop :=
  ∃ text, files.find? path = .ok (some (.file text mode)) ∧
    Toml.read? (FileTree.unifyLines text.toList) = some document

theorem readLines_of_find? {text : String}
    (h : files.find? path = .ok (some (.file text mode))) :
    files.readLines path = .ok (String.ofList (FileTree.unifyLines text.toList)) := by
  rw [FileTree.readLines, (FileTree.holds_of_find? h).read]
  rfl

theorem Reads.load (h : Reads files path mode document) :
    load files path = .ok (users document) := by
  obtain ⟨text, hfind, hread⟩ := h
  rw [Registry.load, if_pos (FileTree.holds_of_find? hfind).exists?, readLines_of_find? hfind]
  change read (String.ofList (FileTree.unifyLines text.toList)) = _
  rw [read, String.toList_ofList, hread]

theorem reads_of_load {text : String} (hfind : files.find? path = .ok (some (.file text mode)))
    (hload : load files path = .ok ids) :
    ∃ document, Reads files path mode document ∧ users document = ids := by
  rw [Registry.load, if_pos (FileTree.holds_of_find? hfind).exists?,
    readLines_of_find? hfind] at hload
  change read (String.ofList (FileTree.unifyLines text.toList)) = _ at hload
  rw [read, String.toList_ofList] at hload
  split at hload
  · next document hread =>
    exact ⟨document, ⟨text, hfind, hread⟩, Except.ok.inj hload⟩
  · cases hload

theorem outcome_save_read (h : Reads files path mode document) (hids : ∀ id ∈ ids, Trimmed id) :
    (HoldsTable document ∧ ∃ made document',
      (save path (ids.map .text)).outcome files = (.ok (), made) ∧
        Reads made path mode document' ∧ Rewrites ids.mergeSort document document') ∨
      ¬HoldsTable document ∧
        (save path (ids.map .text)).outcome files = (.error .wrongType, files) := by
  obtain ⟨text, hfind, hread⟩ := h
  have hlines := readLines_of_find? hfind
  have hsorted : ∀ id ∈ ids.mergeSort, id ≠ "" := fun id hid =>
    (hids id (List.mem_mergeSort.mp hid)).nonempty
  have hunified : '\r' ∉ (String.ofList (FileTree.unifyLines text.toList)).toList := by
    rw [String.toList_ofList]
    exact FileTree.return_notMem_unifyLines _
  rcases write_read (by rwa [String.toList_ofList]) hunified hsorted with
    ⟨htable, text', document', hwrite, hreturn, hread', hrewrites⟩ | ⟨htable, hwrite⟩
  · obtain ⟨made, hmade, hkept⟩ := FileTree.write_keeps_mode hfind text'
    refine .inl ⟨htable, made, document', ?_, ⟨text', hkept, ?_⟩, hrewrites⟩
    · simp [save, hfind, hlines, idsOfKeys_texts, hwrite, hmade]
    · rwa [FileTree.unifyLines_eq hreturn]
  · exact .inr ⟨htable, by simp [save, hfind, hlines, idsOfKeys_texts, hwrite]⟩

theorem Rewrites.users_eq {document' : Toml} (h : Rewrites ids document document')
    (hids : ∀ id ∈ ids, Trimmed id) : Registry.users document' = ids := by
  rw [Registry.users, h.users]
  exact idsOf_texts hids

theorem Rewrites.holdsTable {document' : Toml} (h : Rewrites ids document document') :
    HoldsTable document' := by
  intro v hv
  have husers := h.users
  rw [hv] at husers
  cases v with
  | table inner => exact ⟨inner, rfl⟩
  | text | int | real | bool | moment | array => cases husers

/-! ## Marks and restarts -/

/-- The registered users are those of the file, which is otherwise as it was. -/
structure Keeps (path : String) (mode : Nat) (document : Toml) (ids : List String) (b : Bridge) :
    Prop where
  asked : Bridge.registryPathOf b.environment b.settings.registryPath = .ok (some path)
  registryPath : b.registryPath = some path
  registered : b.store.registered = ids.map .text
  distinct : ids.Nodup
  trimmed : ∀ id ∈ ids, Trimmed id
  kept : ∃ now, Reads b.files path mode now ∧ HoldsTable now ∧ (∀ id, id ∈ users now ↔ id ∈ ids) ∧
    ∀ key, key ≠ tableName → now.get? key = document.get? key

variable {b : Bridge}

/-- Users are registered in the order in which they come, each of them once. -/
theorem registered_foldl_distinct {s : Store} {known : List String}
    (hknown : s.registered = known.map .text) (hdistinct : known.Nodup) (ids : List String) :
    ∃ all : List String,
      (ids.foldl (fun s id => s.register (.text id)) s).registered = all.map .text ∧ all.Nodup ∧
      ∀ id, id ∈ all ↔ id ∈ known ∨ id ∈ ids := by
  induction ids generalizing s known with
  | nil => exact ⟨known, hknown, hdistinct, by simp⟩
  | cons first ids ih =>
    rw [List.foldl_cons]
    by_cases hfirst : first ∈ known
    · have hsame : (s.register (.text first)).registered = known.map .text := by
        rw [Store.register, if_pos (by simpa [hknown] using hfirst), hknown]
      obtain ⟨all, hall, hnodup, hmem⟩ := ih hsame hdistinct
      refine ⟨all, hall, hnodup, fun id => ?_⟩
      rw [hmem, List.mem_cons]
      refine or_congr_right' fun hid => ?_
      exact ⟨.inr, fun h => h.resolve_left fun heq => hid (heq ▸ hfirst)⟩
    · have hmore : (s.register (.text first)).registered = (known ++ [first]).map .text := by
        rw [registered_register (by simpa [hknown] using hfirst), hknown, List.map_append]
        rfl
      obtain ⟨all, hall, hnodup, hmem⟩ := ih hmore (nodup_append_singleton hdistinct hfirst)
      refine ⟨all, hall, hnodup, fun id => ?_⟩
      rw [hmem, List.mem_append, List.mem_singleton, List.mem_cons, or_assoc]

/-- A start with a registry file. -/
theorem outcome_load_read
    (hasked : Bridge.registryPathOf b.environment b.settings.registryPath = .ok (some path))
    (h : Reads b.files path mode document) : ∃ (b' : Bridge) (ids : List String),
      Bridge.load.outcome b = (.ok (), b') ∧
      Bridge.registryPathOf b'.environment b'.settings.registryPath = .ok (some path) ∧
      b'.registryPath = some path ∧ b'.files = b.files ∧
      b'.store.registered = ids.map .text ∧ ids.Nodup ∧ ∀ id, id ∈ ids ↔ id ∈ users document := by
  let store : Store := (users document).foldl (fun s id => s.register (.text id)) {}
  obtain ⟨ids, hregistered, hdistinct, hmem⟩ :=
    registered_foldl_distinct (s := {}) List.map_nil.symm List.nodup_nil (users document)
  refine ⟨{ b with store, registryPath := some path }, ids, ?_, hasked, rfl, rfl, hregistered,
    hdistinct, fun id => by simp [hmem]⟩
  simp [Bridge.load, hasked, h.load, store]

theorem Keeps.restart (h : Keeps path mode document ids b) :
    ∃ b' ids', Bridge.load.outcome b = (.ok (), b') ∧ Keeps path mode document ids' b' ∧
      ∀ id, id ∈ ids' ↔ id ∈ ids := by
  obtain ⟨now, hreads, htable, husers, hothers⟩ := h.kept
  obtain ⟨b', ids', hload, hasked, hpath, hfiles, hregistered, hdistinct, hmem⟩ :=
    outcome_load_read h.asked hreads
  have hsame (id : String) : id ∈ ids' ↔ id ∈ ids := (hmem id).trans (husers id)
  refine ⟨b', ids', hload, ⟨hasked, hpath, hregistered, hdistinct,
    fun id hid => h.trimmed id ((hsame id).mp hid), now, hfiles ▸ hreads, htable,
    fun id => (hmem id).symm, hothers⟩, hsame⟩

theorem outcome_saveRegistered_read (hreads : Reads b.files path mode document)
    (hregistered : b.store.registered = ids.map .text) (hids : ∀ id ∈ ids, Trimmed id) :
    (HoldsTable document ∧ ∃ made document',
      (Bridge.saveRegistered path).outcome b = (.ok (), { b with files := made }) ∧
        Reads made path mode document' ∧ Rewrites ids.mergeSort document document') ∨
      ¬HoldsTable document ∧
        (Bridge.saveRegistered path).outcome b = (.error .wrongType, b) := by
  rcases outcome_save_read hreads hids with
    ⟨htable, made, document', hsave, hmade⟩ | ⟨htable, hsave⟩
  · exact .inl ⟨htable, made, document', by simp [Bridge.saveRegistered, hregistered, hsave], hmade⟩
  · exact .inr ⟨htable, by simp [Bridge.saveRegistered, hregistered, hsave]⟩

theorem Keeps.mark (h : Keeps path mode document ids b) {user : String} (huser : Trimmed user) :
    ∃ b' ids', (Bridge.markRegistered (.text user)).outcome b = (.ok (), b') ∧
      Keeps path mode document ids' b' ∧ ∀ id, id ∈ ids' ↔ id ∈ ids ∨ id = user := by
  rcases mark_cases h.registered h.registryPath user with
    ⟨hknown, hout⟩ | ⟨hnew, hregistered, hout⟩
  · exact ⟨b, ids, hout, h, fun id => (or_iff_left_of_imp fun heq => heq ▸ hknown).symm⟩
  · have htrimmed : ∀ id ∈ ids ++ [user], Trimmed id := by
      simpa [or_imp, forall_and] using ⟨h.trimmed, huser⟩
    have hsorted : ∀ id ∈ (ids ++ [user]).mergeSort, Trimmed id := fun id hid =>
      htrimmed id (List.mem_mergeSort.mp hid)
    let marked : Bridge := { b with store := b.store.register (.text user) }
    obtain ⟨now, hreads, htable, -, hothers⟩ := h.kept
    rcases outcome_saveRegistered_read (b := marked) hreads hregistered htrimmed with
      ⟨-, made, document', hsave, hmade, hrewrites⟩ | ⟨hnone, -⟩
    · refine ⟨{ marked with files := made }, ids ++ [user], hout.trans hsave, ⟨h.asked,
        h.registryPath, hregistered, nodup_append_singleton h.distinct hnew, htrimmed, document',
        hmade, hrewrites.holdsTable, fun id => ?_, fun key hkey =>
          (hrewrites.outside key hkey).trans (hothers key hkey)⟩, fun id => by simp⟩
      rw [hrewrites.users_eq hsorted]
      exact List.mem_mergeSort
    · exact absurd htable hnone

theorem users_of_taken {v : Toml} (hv : document.get? tableName = some v)
    (htable : ∀ inner, v ≠ .table inner) : users document = [] := by
  rw [users, hv]
  cases v with
  | table inner => exact absurd rfl (htable inner)
  | text | int | real | bool | moment | array => rfl

/-- Where a registry holds a value in place of the table, the first mark fails. -/
theorem outcome_mark_taken
    (hasked : Bridge.registryPathOf b.environment b.settings.registryPath = .ok (some path))
    (hreads : Reads b.files path mode document) {v : Toml}
    (hv : document.get? tableName = some v) (htable : ∀ inner, v ≠ .table inner) {user : String}
    (huser : Trimmed user) :
    ∃ b', (Bridge.load >>= fun _ => Bridge.markRegistered (.text user)).outcome b =
        (.error .wrongType, b') ∧
      b'.store.registered = [.text user] ∧ b'.files = b.files := by
  have hnone := users_of_taken hv htable
  obtain ⟨b₁, known, hstart, -, hpath, hfiles, hregistered, -, hmem⟩ :=
    outcome_load_read hasked hreads
  have hknown : known = [] := List.eq_nil_iff_forall_not_mem.mpr fun id hid => by
    simpa [hnone] using (hmem id).mp hid
  subst hknown
  rcases mark_cases hregistered hpath user with ⟨hold, -⟩ | ⟨-, hone, hout⟩
  · exact absurd hold List.not_mem_nil
  · let marked : Bridge := { b₁ with store := b₁.store.register (.text user) }
    have hmarked : Reads marked.files path mode document := hfiles ▸ hreads
    rcases outcome_saveRegistered_read hmarked hone (by simpa using huser) with
      ⟨hholds, -⟩ | ⟨-, hsave⟩
    · obtain ⟨inner, hinner⟩ := hholds v hv
      exact absurd hinner (htable inner)
    · refine ⟨marked, ?_, hone, hfiles⟩
      rw [Attempt.outcome_bind, hstart]
      exact hout.trans hsave

theorem registryPathOf_expand {raw : String} (hraw : b.settings.registryPath = .text raw)
    (hpath : b.environment.expand raw ≠ "") :
    Bridge.registryPathOf b.environment b.settings.registryPath =
      .ok (some (b.environment.expand raw)) := by
  rw [hraw]
  exact congrArg Except.ok (if_neg (by simpa using hpath))

/-- A bridge that starts with a registry file registers the users that it reads there and, as long
as the file holds nothing but a table under the name of the table, all that are marked. The file
keeps them, its mode and all else that it holds. If it holds another value there, the first mark
fails: the user is registered, but not in the file. -/
theorem marks_in_file {raw text : String} (hraw : b.settings.registryPath = .text raw)
    (hfile : b.files.find? (b.environment.expand raw) = .ok (some (.file text mode)))
    (hload : load b.files (b.environment.expand raw) = .ok ids) :
    ∃ document, Toml.read? (FileTree.unifyLines text.toList) = some document ∧
      ((∀ v, document.get? tableName = some v → ∃ inner, v = .table inner) →
        ∀ steps, (∀ user ∈ marked steps, Trimmed user) →
        ∃ b', (Bridge.load >>= fun _ => steps.forM Step.act).outcome b = (.ok (), b') ∧
          (∀ key, key ∈ b'.store.registered ↔
            ∃ id, (id ∈ ids ∨ id ∈ marked steps) ∧ key = .text id) ∧
          (∃ ids', load b'.files (b.environment.expand raw) = .ok ids' ∧
            ∀ key, key ∈ b'.store.registered ↔ ∃ id ∈ ids', key = .text id) ∧
          ∃ text' document',
            b'.files.find? (b.environment.expand raw) = .ok (some (.file text' mode)) ∧
            Toml.read? (FileTree.unifyLines text'.toList) = some document' ∧
            ∀ key, key ≠ tableName → document'.get? key = document.get? key) ∧
      ((∃ v, document.get? tableName = some v ∧ ∀ inner, v ≠ .table inner) →
        ids = [] ∧ ∀ user, Trimmed user →
        ∃ b', (Bridge.load >>= fun _ => Bridge.markRegistered (.text user)).outcome b =
            (.error .wrongType, b') ∧
          b'.store.registered = [.text user] ∧ b'.files = b.files) := by
  obtain ⟨document, hreads, rfl⟩ := reads_of_load hfile hload
  have hread : Toml.read? (FileTree.unifyLines text.toList) = some document := by
    obtain ⟨text', hfind, hread⟩ := hreads
    cases hfile.symm.trans hfind
    exact hread
  have hasked := registryPathOf_expand hraw (by
    intro hempty
    rw [hempty] at hfile
    cases hfile)
  refine ⟨document, hread, fun htable steps htrimmed => ?_, fun hother => ?_⟩
  · obtain ⟨b₁, known, hstart, hasked₁, hpath, hfiles, hregistered, hdistinct, hmem⟩ :=
      outcome_load_read hasked hreads
    have h₁ : Keeps (b.environment.expand raw) mode document known b₁ :=
      ⟨hasked₁, hpath, hregistered, hdistinct, fun id hid => trimmed_users ((hmem id).mp hid),
        document, hfiles ▸ hreads, htable, fun id => (hmem id).symm, fun _ _ => rfl⟩
    obtain ⟨b₂, ids, hrun, h₂, hids⟩ :=
      run_steps (fun h => h.mark) (fun h => h.restart) h₁ steps htrimmed
    obtain ⟨now, hnow, -, husers, hothers⟩ := h₂.kept
    refine ⟨b₂, ?_, fun key => ?_, ⟨users now, hnow.load, fun key => ?_⟩, ?_⟩
    · rw [Attempt.outcome_bind, hstart]
      exact hrun
    · rw [h₂.registered]
      simp [hids, hmem, eq_comm]
    · rw [h₂.registered]
      simp [husers, eq_comm]
    · obtain ⟨text', hfind, hread⟩ := hnow
      exact ⟨text', now, hfind, hread, hothers⟩
  · obtain ⟨v, hv, htable⟩ := hother
    exact ⟨users_of_taken hv htable, fun user huser =>
      outcome_mark_taken hasked hreads hv htable huser⟩

def Example.withFile (text : String) : Bridge where
  settings := { registryPath := .text "/registered.toml" }
  files := ⟨[(["registered.toml"], .file text 0o640)]⟩

theorem Example.expand_withFile (text : String) :
    (Example.withFile text).environment.expand "/registered.toml" = "/registered.toml" := by
  change ({} : Environment).expand "/registered.toml" = _
  decide +kernel

theorem Example.find?_withFile (text : String) :
    (Example.withFile text).files.find? "/registered.toml" = .ok (some (.file text 0o640)) := by
  have hnames : Path.names "/registered.toml" = ["registered.toml"] := by decide +kernel
  have hslash : "/registered.toml".endsWith "/" = false := by decide +kernel
  have hplace : (Example.withFile text).files.place "/registered.toml" = .ok ["registered.toml"] :=
    FileTree.place_of_file (by rw [hnames]; rfl) rfl hslash
  rw [FileTree.find?, hplace]
  rfl

/-- A registry with a comment, and with other values before and after its table. -/
def Example.shared : String :=
  "# Users of a bridge\ntitle = \"kept\"\nregistered.users = [\"@a:hs\"]\n\n[other]\nk = 1\n"

def Example.sharedDocument : Toml :=
  .table [("title", .text "kept"), ("registered", .table [("users", .array [.text "@a:hs"])]),
    ("other", .table [("k", .int 1)])]

theorem Example.read_shared :
    Toml.read? (FileTree.unifyLines Example.shared.toList) = some Example.sharedDocument := by
  rfl

theorem marks_in_file_shared :
    ∃ b', (Bridge.load >>= fun _ => [Step.mark "@new:hs", .restart].forM Step.act).outcome
        (Example.withFile Example.shared) = (.ok (), b') ∧
      (∀ key, key ∈ b'.store.registered ↔
        ∃ id, (id ∈ ["@a:hs"] ∨ id ∈ ["@new:hs"]) ∧ key = .text id) ∧
      ∃ text' document', b'.files.find? "/registered.toml" = .ok (some (.file text' 0o640)) ∧
        Toml.read? (FileTree.unifyLines text'.toList) = some document' ∧
        document'.get? "title" = some (.text "kept") := by
  have hpath := Example.expand_withFile Example.shared
  have hfile := Example.find?_withFile Example.shared
  have hreads : Reads (Example.withFile Example.shared).files "/registered.toml" 0o640
      Example.sharedDocument := ⟨_, hfile, Example.read_shared⟩
  have hload : load (Example.withFile Example.shared).files "/registered.toml" =
      .ok ["@a:hs"] := hreads.load.trans (congrArg Except.ok (by decide +kernel))
  obtain ⟨document, hread, hkept, -⟩ := marks_in_file (b := Example.withFile Example.shared) rfl
    (hpath.symm ▸ hfile) (hpath.symm ▸ hload)
  cases Example.read_shared.symm.trans hread
  obtain ⟨b', hrun, hregistered, -, text', document', hfile', hread', hothers⟩ :=
    hkept (fun v hv => ⟨_, (Option.some.inj hv).symm⟩) [.mark "@new:hs", .restart]
      (by simpa [marked] using ⟨by decide, by decide +kernel⟩)
  rw [hpath] at hfile'
  exact ⟨b', hrun, hregistered, text', document', hfile', hread', hothers "title" (by decide)⟩

/-- A number under the name of the table is read as a registry without users, and then no user can
be put into it. -/
theorem number_in_place_fails :
    let b := Example.withFile "registered = 7\n"
    load b.files "/registered.toml" = .ok [] ∧
      ∃ b', (Bridge.load >>= fun _ => Bridge.markRegistered (.text "@new:hs")).outcome b =
          (.error .wrongType, b') ∧
        b'.store.registered = [.text "@new:hs"] ∧ load b'.files "/registered.toml" = .ok [] := by
  intro b
  have hread : Toml.read? (FileTree.unifyLines "registered = 7\n".toList) =
      some (.table [("registered", .int 7)]) := by
    rfl
  have hreads : Reads b.files "/registered.toml" 0o640 (.table [("registered", .int 7)]) :=
    ⟨_, Example.find?_withFile _, hread⟩
  have hpath : b.environment.expand "/registered.toml" = "/registered.toml" :=
    Example.expand_withFile _
  have hasked := registryPathOf_expand (b := b) rfl (by rw [hpath]; decide)
  rw [hpath] at hasked
  have huser : Trimmed "@new:hs" := ⟨by decide, by decide +kernel⟩
  obtain ⟨b', hmark, hregistered, hfiles⟩ :=
    outcome_mark_taken hasked hreads rfl (by simp) huser
  have hload : load b.files "/registered.toml" = .ok [] := hreads.load
  exact ⟨hload, b', hmark, hregistered, hfiles ▸ hload⟩

end Registry

end VirtualUsers
