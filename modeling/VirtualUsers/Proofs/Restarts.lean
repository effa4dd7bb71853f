import Mathlib.Data.List.Sort
import Mathlib.Data.String.Basic
import VirtualUsers.Proofs.FileTexts
import VirtualUsers.Proofs.RegistryText
import VirtualUsers.Proofs.Traffic
/-!
# Registered users across restarts

Users are marked as registered, and from time to time the bridge starts again with nothing but its
registry. It always knows all the users that were marked, and the file has them in order.
-/

namespace VirtualUsers

open Attempt (ofResult)

namespace Registry

/-- What happens to a registry: a user is marked, or the bridge starts again. -/
inductive Step where
  | mark (user : String)
  | restart

def Step.act : Step → Act Unit
  | mark user => Bridge.markRegistered (.text user)
  | restart => Bridge.load

def marked (steps : List Step) : List String :=
  steps.filterMap fun
    | .mark user => some user
    | .restart => none

/-- A file can be made at the path, in a directory that is there or can be made. -/
def CanMake (files : FileTree) (path : String) : Prop :=
  ∃ dirs made, (if Path.directoryPart path = "" then .ok files
    else files.makePrivateDirectory (Path.directoryPart path)) = .ok dirs ∧
    dirs.write path "" = .ok made

variable {path : String} {ids : List String} {files : FileTree}

/-- The empty path leads nowhere. -/
theorem CanMake.ne_empty (h : CanMake files path) : path ≠ "" := by
  rintro rfl
  obtain ⟨dirs, made, -, hmade⟩ := h
  obtain ⟨place, hplace, -⟩ := FileTree.leads_of_update hmade
  cases hplace

/-! ## Ids -/

theorem pairwise_mergeSort (h : ids.Nodup) : ids.mergeSort.Pairwise (· < ·) := by
  have hle : ids.mergeSort.Pairwise (· ≤ ·) := List.pairwise_mergeSort' (· ≤ ·) ids
  have hne : ids.mergeSort.Nodup := (List.mergeSort_perm ids _).nodup_iff.mpr h
  exact (hle.and hne).imp fun h => lt_of_le_of_ne h.1 h.2

theorem mergeSort_mergeSort (ids : List String) : ids.mergeSort.mergeSort = ids.mergeSort :=
  List.mergeSort_eq_self (· ≤ ·) (List.pairwise_mergeSort' (· ≤ ·) ids)

theorem idsOfKeys_texts (ids : List String) : idsOfKeys (ids.map .text) = .ok ids.mergeSort := by
  have htexts : (ids.map Key.text).mapM Key.text? = some ids := by
    induction ids with
    | nil => rfl
    | cons id ids ih =>
      rw [List.map_cons, List.mapM_cons, ih]
      rfl
  rw [idsOfKeys, htexts]

theorem registered_register {s : Store} {user : Key} (h : user ∉ s.registered) :
    (s.register user).registered = s.registered ++ [user] := by
  rw [Store.register, if_neg (by simpa using h)]

theorem registered_foldl {s : Store} (h : ids.Nodup)
    (hnew : ∀ id ∈ ids, Key.text id ∉ s.registered) :
    (ids.foldl (fun s id => s.register (.text id)) s).registered =
      s.registered ++ ids.map .text := by
  induction ids generalizing s with
  | nil => rw [List.map_nil, List.append_nil]; rfl
  | cons id ids ih =>
    obtain ⟨hid, hids⟩ := List.nodup_cons.mp h
    have hfirst := registered_register (hnew id List.mem_cons_self)
    rw [List.foldl_cons, ih hids, hfirst, List.append_assoc]
    · rfl
    · intro other hother hmem
      rw [hfirst] at hmem
      rcases List.mem_append.mp hmem with hmem | hmem
      · exact hnew other (List.mem_cons_of_mem id hother) hmem
      · cases List.mem_singleton.mp hmem
        exact hid hother

/-! ## The file -/

/-- The file has the ids in order, and there is none as long as there are no ids. -/
def Stored (files : FileTree) (path : String) (ids : List String) : Prop :=
  (ids = [] ∧ files.find? path = .ok none ∧ CanMake files path) ∨
    files.Holds path (textOf ids.mergeSort)

theorem outcome_create (h : CanMake files path) (ids : List String) :
    ∃ made, (create path ids).outcome files = (.ok (), made) ∧ made.Holds path (textOf ids) := by
  obtain ⟨dirs, made, hdirs, hmade⟩ := h
  obtain ⟨written, hwrite, hholds⟩ := FileTree.write_again hmade (textOf ids)
  refine ⟨_, ?_, hholds.setMode FileTree.privateFileMode⟩
  by_cases hdirectory : Path.directoryPart path = ""
  · rw [if_pos hdirectory] at hdirs
    cases hdirs
    simp [create, hdirectory, write_empty, hwrite]
  · rw [if_neg hdirectory] at hdirs
    simp [create, hdirectory, hdirs, write_empty, hwrite]

theorem outcome_save {old : List String} (h : Stored files path old)
    (hold : ∀ id ∈ old, id ≠ "") (ids : List String) :
    ∃ made, (save path (ids.map .text)).outcome files = (.ok (), made) ∧
      made.Holds path (textOf ids.mergeSort) := by
  -- The first users make the file, and all later ones edit the text that those before them left.
  rcases h with ⟨-, habsent, hmake⟩ | hholds
  · obtain ⟨made, hcreate, hmade⟩ := outcome_create hmake ids.mergeSort
    exact ⟨made, by simp [save, habsent, idsOfKeys_texts, hcreate], hmade⟩
  · obtain ⟨mode, hfind⟩ := hholds.find?
    obtain ⟨made, hwrite, hmade⟩ := hholds.write (textOf ids.mergeSort)
    have hread := hholds.readLines (return_notMem_textOf _)
    have htext : write ids.mergeSort (textOf old.mergeSort) = .ok (textOf ids.mergeSort) :=
      write_textOf (fun id hid => hold id (List.mem_mergeSort.mp hid)) _
    exact ⟨made, by simp [save, hfind, hread, idsOfKeys_texts, htext, hwrite], hmade⟩

theorem load_stored (h : Stored files path ids) (htrimmed : ∀ id ∈ ids, Trimmed id) :
    load files path = .ok ids.mergeSort := by
  rcases h with ⟨rfl, habsent, -⟩ | hholds
  · have hnone : files.exists? path = false := by rw [FileTree.exists?, habsent]
    rw [load, hnone, List.mergeSort_nil]
    rfl
  · have hread : read (textOf ids.mergeSort) = .ok ids.mergeSort :=
      read_textOf fun id hid => htrimmed id (List.mem_mergeSort.mp hid)
    rw [load, if_pos hholds.exists?, hholds.readLines (return_notMem_textOf _)]
    simp only [bind, Except.bind, hread]

/-! ## Marks and restarts -/

/-- The registered users are the given ids, and the registry at the path has them. -/
structure Registers (path : String) (ids : List String) (b : Bridge) : Prop where
  asked : Bridge.registryPathOf b.environment b.settings.registryPath = .ok (some path)
  registryPath : b.registryPath = some path
  registered : b.store.registered = ids.map .text
  distinct : ids.Nodup
  trimmed : ∀ id ∈ ids, Trimmed id
  stored : Stored b.files path ids

variable {b : Bridge}

theorem outcome_saveRegistered {old : List String} (hstored : Stored b.files path old)
    (hold : ∀ id ∈ old, id ≠ "") (hregistered : b.store.registered = ids.map .text) :
    ∃ made, (Bridge.saveRegistered path).outcome b = (.ok (), { b with files := made }) ∧
      made.Holds path (textOf ids.mergeSort) := by
  obtain ⟨made, hsave, hmade⟩ := outcome_save hstored hold ids
  refine ⟨made, ?_, hmade⟩
  simp [Bridge.saveRegistered, hregistered, hsave]

theorem outcome_markNew {user : String} (hnew : Key.text user ∉ b.store.registered)
    (hpath : b.registryPath = some path) : (Bridge.markRegistered (.text user)).outcome b =
      (Bridge.saveRegistered path).outcome { b with store := b.store.register (.text user) } := by
  simp only [Bridge.markRegistered, Value.toKey_text, Attempt.outcome_bind,
    Attempt.outcome_ofResult, Attempt.follow_ok, Attempt.outcome_get, List.contains_iff_mem, hnew,
    if_false, Attempt.outcome_modify]
  split
  · next found hfound =>
    cases hfound.symm.trans hpath
    rfl
  · next hnone => cases hnone.symm.trans hpath

/-- A mark leaves a user who is known, and saves one who is new after the others. -/
theorem mark_cases (hregistered : b.store.registered = ids.map .text)
    (hpath : b.registryPath = some path) (user : String) :
    user ∈ ids ∧ (Bridge.markRegistered (.text user)).outcome b = (.ok (), b) ∨
      user ∉ ids ∧ (b.store.register (.text user)).registered = (ids ++ [user]).map .text ∧
        (Bridge.markRegistered (.text user)).outcome b =
          (Bridge.saveRegistered path).outcome
            { b with store := b.store.register (.text user) } := by
  have hmem : Key.text user ∈ b.store.registered ↔ user ∈ ids := by
    rw [hregistered]
    exact List.mem_map_of_injective fun _ _ => Key.text.inj
  by_cases hknown : user ∈ ids
  · exact .inl ⟨hknown, by simp [Bridge.markRegistered, hmem.mpr hknown]⟩
  · have hnew : Key.text user ∉ b.store.registered := mt hmem.mp hknown
    refine .inr ⟨hknown, ?_, outcome_markNew hnew hpath⟩
    rw [registered_register hnew, hregistered, List.map_append]
    rfl

theorem nodup_append_singleton (h : ids.Nodup) {user : String} (hnew : user ∉ ids) :
    (ids ++ [user]).Nodup := by
  rw [← List.concat_eq_append]
  exact .concat hnew h

/-- A user who is marked is kept from then on. -/
theorem Registers.mark (h : Registers path ids b) {user : String} (huser : Trimmed user) :
    ∃ b' ids', (Bridge.markRegistered (.text user)).outcome b = (.ok (), b') ∧
      Registers path ids' b' ∧ ∀ id, id ∈ ids' ↔ id ∈ ids ∨ id = user := by
  rcases mark_cases h.registered h.registryPath user with
    ⟨hknown, hout⟩ | ⟨hnew, hregistered, hout⟩
  · exact ⟨b, ids, hout, h, fun id => (or_iff_left_of_imp fun heq => heq ▸ hknown).symm⟩
  · have htrimmed : ∀ id ∈ ids ++ [user], Trimmed id := by
      simpa [or_imp, forall_and] using ⟨h.trimmed, huser⟩
    let marked : Bridge := { b with store := b.store.register (.text user) }
    obtain ⟨made, hsave, hmade⟩ := outcome_saveRegistered (b := marked) h.stored
      (fun id hid => (h.trimmed id hid).nonempty) hregistered
    exact ⟨{ marked with files := made }, ids ++ [user], hout.trans hsave,
      ⟨h.asked, h.registryPath, hregistered, nodup_append_singleton h.distinct hnew, htrimmed,
        .inr hmade⟩, fun id => by simp⟩

/-- What the registry has is registered after a start. -/
theorem outcome_load
    (hasked : Bridge.registryPathOf b.environment b.settings.registryPath = .ok (some path))
    (hdistinct : ids.Nodup) (htrimmed : ∀ id ∈ ids, Trimmed id)
    (hstored : Stored b.files path ids) :
    ∃ b', Bridge.load.outcome b = (.ok (), b') ∧ Registers path ids.mergeSort b' := by
  have hperm := List.mergeSort_perm ids fun a b => decide (a ≤ b)
  have hsorted : ids.mergeSort.Nodup := hperm.nodup_iff.mpr hdistinct
  let store : Store := ids.mergeSort.foldl (fun s id => s.register (.text id)) {}
  have hregistered : store.registered = ids.mergeSort.map .text :=
    registered_foldl hsorted fun id _ => List.not_mem_nil
  refine ⟨{ b with store, registryPath := some path }, ?_, hasked, rfl, hregistered, hsorted,
    fun id hid => htrimmed id (List.mem_mergeSort.mp hid), ?_⟩
  · simp [Bridge.load, hasked, load_stored hstored htrimmed, store]
  · rcases hstored with ⟨rfl, habsent⟩ | hholds
    · exact .inl ⟨List.mergeSort_nil, habsent⟩
    · exact .inr ((mergeSort_mergeSort ids).symm ▸ hholds)

/-- If a mark adds its user to the ids and a start adds none, exactly the marked users are added. -/
theorem run_steps {P : List String → Bridge → Prop}
    (hmark : ∀ {ids b user}, P ids b → Trimmed user → ∃ b' ids',
      (Bridge.markRegistered (.text user)).outcome b = (.ok (), b') ∧ P ids' b' ∧
        ∀ id, id ∈ ids' ↔ id ∈ ids ∨ id = user)
    (hrestart : ∀ {ids b}, P ids b → ∃ b' ids', Bridge.load.outcome b = (.ok (), b') ∧ P ids' b' ∧
      ∀ id, id ∈ ids' ↔ id ∈ ids)
    (h : P ids b) (steps : List Step) (htrimmed : ∀ user ∈ marked steps, Trimmed user) :
    ∃ b' ids', (steps.forM Step.act).outcome b = (.ok (), b') ∧ P ids' b' ∧
      ∀ id, id ∈ ids' ↔ id ∈ ids ∨ id ∈ marked steps := by
  -- The ids grow with every mark; a start only brings them in order.
  induction steps generalizing b ids with
  | nil => exact ⟨b, ids, rfl, h, fun id => by simp [marked]⟩
  | cons s steps ih =>
    obtain ⟨b₁, ids₁, hstep, h₁, hids₁⟩ : ∃ b₁ ids₁, s.act.outcome b = (.ok (), b₁) ∧
        P ids₁ b₁ ∧ ∀ id, id ∈ ids₁ ↔ id ∈ ids ∨ id ∈ marked [s] := by
      cases s with
      | mark user =>
        obtain ⟨b₁, ids₁, hstep, h₁, hids₁⟩ := hmark h (htrimmed user List.mem_cons_self)
        exact ⟨b₁, ids₁, hstep, h₁, fun id => by simp [hids₁, marked]⟩
      | restart =>
        obtain ⟨b₁, ids₁, hload, h₁, hids₁⟩ := hrestart h
        exact ⟨b₁, ids₁, hload, h₁, fun id => by simp [hids₁, marked]⟩
    have hmarked : marked (s :: steps) = marked [s] ++ marked steps := by
      cases s <;> rfl
    rw [hmarked] at htrimmed ⊢
    obtain ⟨b₂, ids₂, hrest, h₂, hids₂⟩ :=
      ih h₁ fun user huser => htrimmed user (List.mem_append_right _ huser)
    refine ⟨b₂, ids₂, ?_, h₂, fun id => ?_⟩
    · change (s.act >>= fun _ => steps.forM Step.act).outcome b = _
      rw [Attempt.outcome_bind, hstep]
      exact hrest
    · rw [hids₂, hids₁, List.mem_append, or_assoc]

theorem Registers.restart (h : Registers path ids b) : ∃ b' ids',
    Bridge.load.outcome b = (.ok (), b') ∧ Registers path ids' b' ∧ ∀ id, id ∈ ids' ↔ id ∈ ids := by
  obtain ⟨b', hload, h'⟩ := outcome_load h.asked h.distinct h.trimmed h.stored
  exact ⟨b', _, hload, h', fun id => List.mem_mergeSort⟩

/-- The array of the file at the path has the registered users, in order and each of them once. As
long as there are none there is no file. -/
def Agrees (path : String) (b : Bridge) : Prop :=
  (b.files.find? path = .ok none ∧ b.store.registered = []) ∨
    ∃ (text : String) (document : Toml) (ids : List String),
      b.files.read path = .ok text ∧ Toml.read? text.toList = some document ∧
      (document.get? tableName).bind (Toml.get? usersName) = some (.array (ids.map Toml.text)) ∧
      ids.Pairwise (· < ·) ∧ ∀ key, key ∈ b.store.registered ↔ ∃ id ∈ ids, key = .text id

theorem Registers.agrees (h : Registers path ids b) : Agrees path b := by
  rcases h.stored with ⟨rfl, habsent, -⟩ | hholds
  · exact .inl ⟨habsent, h.registered⟩
  · refine .inr ⟨_, _, ids.mergeSort, hholds.read,
      read?_textOf fun id hid => (h.trimmed id (List.mem_mergeSort.mp hid)).nonempty, rfl,
      pairwise_mergeSort h.distinct, fun key => ?_⟩
    rw [h.registered]
    simp [eq_comm]

/-- A bridge that begins without a registry file where one can be made registers, whatever happens,
exactly the users who were marked, and the file agrees with that. -/
theorem marks_survive_restarts {raw : String} (hraw : b.settings.registryPath = .text raw)
    (habsent : b.files.find? (b.environment.expand raw) = .ok none)
    (hmake : CanMake b.files (b.environment.expand raw)) (steps : List Step)
    (htrimmed : ∀ user ∈ marked steps, Trimmed user) :
    ∃ b', (Bridge.load >>= fun _ => steps.forM Step.act).outcome b = (.ok (), b') ∧
      (∀ key, key ∈ b'.store.registered ↔ ∃ user ∈ marked steps, key = .text user) ∧
      Agrees (b.environment.expand raw) b' := by
  have hasked : Bridge.registryPathOf b.environment b.settings.registryPath =
      .ok (some (b.environment.expand raw)) := by
    rw [hraw]
    exact congrArg Except.ok (if_neg (by simpa using hmake.ne_empty))
  have hstored : Stored b.files (b.environment.expand raw) [] := .inl ⟨rfl, habsent, hmake⟩
  obtain ⟨b₁, hload, h₁⟩ := outcome_load hasked List.nodup_nil (fun _ hid => absurd hid
    List.not_mem_nil) hstored
  obtain ⟨b₂, ids, hrun, h₂, hids⟩ :=
    run_steps (fun h => h.mark) (fun h => h.restart) h₁ steps htrimmed
  refine ⟨b₂, ?_, fun key => ?_, h₂.agrees⟩
  · rw [Attempt.outcome_bind, hload]
    exact hrun
  · rw [h₂.registered]
    simp [hids, eq_comm]

/-- Ids with a quote, a backslash, control characters and characters beyond ASCII. -/
def Example.oddSteps : List Step :=
  [.mark "@b\"c\\d:hs", .restart, .mark "@a\r\x01\x7f\t:hs", .mark "@é\u0085😀:hs",
    .mark "@b\"c\\d:hs", .restart]

def Example.blankSlate : Bridge where
  settings := { registryPath := .text "/state/registered.toml" }

theorem Example.canMake_blankSlate : CanMake {} "/state/registered.toml" := by
  let dirs : FileTree := ⟨[(["state"], .directory FileTree.privateDirectoryMode)]⟩
  have hdirectory : Path.directoryPart "/state/registered.toml" = "/state" := by decide +kernel
  have hleads : dirs.Leads "/state/registered.toml" ["state", "registered.toml"] :=
    ⟨rfl, nofun, by decide +kernel⟩
  obtain ⟨mode, hwrite⟩ := FileTree.write_of_leads hleads ""
  refine ⟨dirs, _, ?_, hwrite⟩
  rw [hdirectory]
  rfl

theorem marks_survive_restarts_odd :
    ∃ b', (Bridge.load >>= fun _ => Example.oddSteps.forM Step.act).outcome Example.blankSlate =
        (.ok (), b') ∧
      (∀ key, key ∈ b'.store.registered ↔ ∃ user ∈
        ["@b\"c\\d:hs", "@a\r\x01\x7f\t:hs", "@é\u0085😀:hs", "@b\"c\\d:hs"], key = .text user) ∧
      Agrees "/state/registered.toml" b' := by
  have hpath : Example.blankSlate.environment.expand "/state/registered.toml" =
      "/state/registered.toml" := by decide +kernel
  have htrimmed : ∀ user ∈ marked Example.oddSteps, user ≠ "" ∧ Text.strip user = user := by
    decide +kernel
  have hall := marks_survive_restarts (b := Example.blankSlate) rfl (hpath.symm ▸ rfl)
    (hpath.symm ▸ Example.canMake_blankSlate) Example.oddSteps
    fun user huser => ⟨(htrimmed user huser).1, (htrimmed user huser).2⟩
  rwa [hpath] at hall

end Registry

end VirtualUsers
