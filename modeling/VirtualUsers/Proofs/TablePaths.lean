import VirtualUsers.Proofs.LineTexts
/-!
# Tables without the array

A change at a path of a table is a change of what is under its first name. So a change outside the
array of a registry does the same to two tables that differ in nothing but that array.
-/

namespace VirtualUsers

namespace Toml

def alterAt (f : Option Toml → Option Toml) : List String → Option Toml → Option Toml
  | [], v => f v
  | path, none => (alter f path []).map .table
  | path, some (.table inner) => (alter f path inner).map .table
  | path, some (.array items) =>
    match items.getLast? with
    | some (.table inner) => (alter f path inner).map fun entries =>
        .array (items.dropLast ++ [.table entries])
    | _ => none
  | _, some _ => none

variable {f : Option Toml → Option Toml} {name key : String} {path : List String}
  {entries : List (String × Toml)} {v : Toml}

theorem alter_cons (f : Option Toml → Option Toml) (name : String) (path : List String)
    (entries : List (String × Toml)) : alter f (name :: path) entries =
      (alterAt f path (entries.lookup name)).map (alter.put name · entries) := by
  cases path with
  | nil =>
    rw [alter, alterAt]
    cases f (entries.lookup name) <;> rfl
  | cons next path =>
    rw [alter]
    · cases entries.lookup name with
      | none =>
        dsimp only
        rw [alterAt]
        · cases alter f (next :: path) [] <;> rfl
        · simp
      | some v =>
        cases v with
        | table inner =>
          dsimp only
          rw [alterAt]
          · cases alter f (next :: path) inner <;> rfl
          · simp
        | array items =>
          dsimp only
          rw [alterAt]
          · cases items.getLast? with
            | none => rfl
            | some last =>
              cases last with
              | table inner =>
                dsimp only
                cases alter f (next :: path) inner <;> rfl
              | text | int | real | bool | moment | array => rfl
          · simp
        | text | int | real | bool | moment => rfl
    · simp

theorem lookup_put (name key : String) (v : Toml) (entries : List (String × Toml)) :
    (alter.put name v entries).lookup key = if key = name then some v else entries.lookup key := by
  induction entries with
  | nil =>
    rw [alter.put, List.lookup_cons]
    split <;> simp_all
  | cons e entries ih =>
    obtain ⟨k, w⟩ := e
    rw [alter.put]
    split
    · next hk =>
      subst hk
      rw [List.lookup_cons, List.lookup_cons]
      split <;> simp_all
    · next hk =>
      rw [List.lookup_cons, List.lookup_cons, ih]
      split <;> simp_all

theorem alter_nil (f : Option Toml → Option Toml) (entries : List (String × Toml)) :
    alter f [] entries = none := rfl

theorem alterAt_none (f : Option Toml → Option Toml) (name : String) (path : List String) :
    alterAt f (name :: path) none = (alter f (name :: path) []).map .table := by
  rw [alterAt]
  simp

theorem alterAt_table (f : Option Toml → Option Toml) (name : String) (path : List String)
    (inner : List (String × Toml)) :
    alterAt f (name :: path) (some (.table inner)) = (alter f (name :: path) inner).map .table := by
  rw [alterAt]
  simp

end Toml

namespace Registry

open Toml

def tableOf (entries : List (String × Toml)) : List (String × Toml) :=
  match entries.lookup tableName with
  | some (.table inner) => inner
  | _ => []

def HasRoom (entries : List (String × Toml)) : Prop :=
  entries.lookup tableName = none ∨ ∃ inner, entries.lookup tableName = some (.table inner)

/-- The tables differ in nothing but the array, which is as given in the second one. -/
structure Like (u : Option Toml) (entries entries' : List (String × Toml)) : Prop where
  room : HasRoom entries
  room' : HasRoom entries'
  outside : ∀ key, key ≠ tableName → entries'.lookup key = entries.lookup key
  inside : ∀ key, key ≠ usersName → (tableOf entries').lookup key = (tableOf entries).lookup key
  users : (tableOf entries').lookup usersName = u

variable {f : Option Toml → Option Toml} {name key : String} {path : List String}
  {entries entries' altered inner : List (String × Toml)} {u : Option Toml} {v : Toml}

theorem tableOf_put (entries inner : List (String × Toml)) :
    tableOf (alter.put tableName (.table inner) entries) = inner := by
  rw [tableOf, lookup_put, if_pos rfl]

theorem tableOf_put_ne (h : name ≠ tableName) (v : Toml) (entries : List (String × Toml)) :
    tableOf (alter.put name v entries) = tableOf entries := by
  rw [tableOf, lookup_put, if_neg h.symm, tableOf]

theorem hasRoom_put (entries inner : List (String × Toml)) :
    HasRoom (alter.put tableName (.table inner) entries) :=
  .inr ⟨inner, by rw [lookup_put, if_pos rfl]⟩

theorem HasRoom.put_ne (h : HasRoom entries) (hname : name ≠ tableName) (v : Toml) :
    HasRoom (alter.put name v entries) := by
  rwa [HasRoom, lookup_put, if_neg hname.symm]

/-- A change within the table of a registry. -/
theorem alter_table (h : HasRoom entries) (f : Option Toml → Option Toml) (key : String)
    (path : List String) : alter f (tableName :: key :: path) entries =
      (alter f (key :: path) (tableOf entries)).map fun inner =>
        alter.put tableName (.table inner) entries := by
  rw [alter_cons, tableOf]
  rcases h with h | ⟨inner, h⟩
  · rw [h, alterAt_none, Option.map_map]
    rfl
  · rw [h, alterAt_table, Option.map_map]
    rfl

theorem Like.put_outside (h : Like u entries entries') (hname : name ≠ tableName) (v : Toml) :
    Like u (alter.put name v entries) (alter.put name v entries') where
  room := h.room.put_ne hname v
  room' := h.room'.put_ne hname v
  outside key hkey := by rw [lookup_put, lookup_put, h.outside key hkey]
  inside key hkey := by rw [tableOf_put_ne hname, tableOf_put_ne hname, h.inside key hkey]
  users := by rw [tableOf_put_ne hname, h.users]

theorem Like.put_inside (h : Like u entries entries') {inner inner' : List (String × Toml)}
    (hinner : ∀ key, key ≠ usersName → inner'.lookup key = inner.lookup key)
    (husers : inner'.lookup usersName = u) :
    Like u (alter.put tableName (.table inner) entries)
      (alter.put tableName (.table inner') entries') where
  room := hasRoom_put entries inner
  room' := hasRoom_put entries' inner'
  outside key hkey := by rw [lookup_put, lookup_put, if_neg hkey, if_neg hkey, h.outside key hkey]
  inside key hkey := by rw [tableOf_put, tableOf_put, hinner key hkey]
  users := by rw [tableOf_put, husers]

/-- A change outside the array. -/
theorem Like.alter (h : Like u entries entries') (hpath : startsWith path usersPath = false)
    (htable : path = [tableName] → f = Reading.enterTable)
    (halter : Toml.alter f path entries = some altered) :
    ∃ altered', Toml.alter f path entries' = some altered' ∧ Like u altered altered' := by
  cases path with
  | nil => cases halter
  | cons name path =>
    by_cases hname : name = tableName
    · subst hname
      cases path with
      | nil =>
        have hput {entries : List (String × Toml)} (h : HasRoom entries) :
            Toml.alter f [tableName] entries =
              some (alter.put tableName (.table (tableOf entries)) entries) := by
          rw [alter_cons, htable rfl, tableOf]
          rcases h with h | ⟨inner, h⟩ <;> rw [h] <;> rfl
        rw [hput h.room] at halter
        cases halter
        exact ⟨_, hput h.room', h.put_inside h.inside h.users⟩
      | cons key path =>
        have hkey : key ≠ usersName := by
          rintro rfl
          simp [startsWith, usersPath] at hpath
        rw [alter_table h.room, alter_cons] at halter
        rw [alter_table h.room', alter_cons, h.inside key hkey]
        obtain ⟨inner, hinner, rfl⟩ := Option.map_eq_some_iff.mp halter
        obtain ⟨v, hv, rfl⟩ := Option.map_eq_some_iff.mp hinner
        rw [hv]
        refine ⟨_, rfl, h.put_inside (fun other hother => ?_) ?_⟩
        · rw [lookup_put, lookup_put, h.inside other hother]
        · rw [lookup_put, if_neg hkey.symm, h.users]
    · rw [alter_cons] at halter
      obtain ⟨v, hv, rfl⟩ := Option.map_eq_some_iff.mp halter
      rw [alter_cons, h.outside name hname, hv]
      exact ⟨_, rfl, h.put_outside hname v⟩

theorem startsWith_users (h : startsWith path usersPath = true) :
    ∃ rest, path = tableName :: usersName :: rest := by
  obtain ⟨rest, rfl⟩ := List.isPrefixOf_iff_prefix.mp h
  exact ⟨rest, rfl⟩

/-- A change of the array in the first table. -/
theorem Like.alter_users (h : Like u entries entries') (hpath : startsWith path usersPath = true)
    (halter : Toml.alter f path entries = some altered) : Like u altered entries' := by
  obtain ⟨rest, rfl⟩ := startsWith_users hpath
  rw [alter_table h.room, alter_cons] at halter
  obtain ⟨inner, hinner, rfl⟩ := Option.map_eq_some_iff.mp halter
  obtain ⟨v, -, rfl⟩ := Option.map_eq_some_iff.mp hinner
  refine ⟨hasRoom_put _ _, h.room', fun key hkey => ?_, fun key hkey => ?_, h.users⟩
  · rw [lookup_put, if_neg hkey, h.outside key hkey]
  · rw [tableOf_put, lookup_put, if_neg hkey, h.inside key hkey]

/-- The array is entered in the second table. -/
theorem Like.enter_users (h : Like none entries entries') (v : Toml) : ∃ altered,
    Toml.alter (enterNew v) usersPath entries' = some altered ∧ Like (some v) entries altered := by
  refine ⟨_, ?_, h.room, hasRoom_put entries' (alter.put usersName v (tableOf entries')),
    fun key hkey => ?_, fun key hkey => ?_, ?_⟩
  · rw [usersPath, alter_table h.room', alter_cons, alterAt, h.users]
    rfl
  · rw [lookup_put, if_neg hkey, h.outside key hkey]
  · rw [tableOf_put, lookup_put, if_neg hkey, h.inside key hkey]
  · rw [tableOf_put, lookup_put, if_pos rfl]

/-- The table is there, or it is made. -/
theorem Like.enter_table (h : Like u entries entries') :
    ∃ altered, Toml.alter Reading.enterTable [tableName] entries' = some altered ∧
      Like u entries altered := by
  refine ⟨alter.put tableName (.table (tableOf entries')) entries', ?_, h.room, hasRoom_put _ _,
    fun key hkey => ?_, fun key hkey => ?_, ?_⟩
  · rw [alter_cons, tableOf]
    rcases h.room' with hroom | ⟨inner, hroom⟩ <;> rw [hroom] <;> rfl
  · rw [lookup_put, if_neg hkey, h.outside key hkey]
  · rw [tableOf_put, h.inside key hkey]
  · rw [tableOf_put, h.users]

end Registry

end VirtualUsers
