import Mathlib.Data.List.DropRight
import VirtualUsers.Proofs.Payloads
import VirtualUsers.Settings
/-!
# Settings from several tables

What a document gives for a setting, by the tables that may give it, and the form in which that is
kept. Main statement: the settings after a document are what the document gives, as it is kept, and
what they were where it gives nothing. Other entries of the document make no difference, and neither
does the same document another time.
-/

namespace VirtualUsers

open Value (lookup?)

/-! ## Slashes at the end -/

namespace Text

theorem rdropWhile_slashes {cs : List Char} (hlast : ∀ h : cs ≠ [], cs.getLast h ≠ '/') (n : Nat) :
    (cs ++ List.replicate n '/').rdropWhile (· == '/') = cs := by
  induction n with
  | zero =>
    rw [List.replicate_zero, List.append_nil, List.rdropWhile_eq_self_iff]
    exact fun h => by simpa using hlast h
  | succ n ih =>
    rw [List.replicate_succ', ← List.append_assoc, List.rdropWhile_concat_pos _ _ _ rfl, ih]

theorem stripSlashes_eq_iff {url short : String} :
    stripSlashes url = short ↔ (∃ n, url.toList = short.toList ++ List.replicate n '/') ∧
      ∀ h : short.toList ≠ [], short.toList.getLast h ≠ '/' := by
  have hdropped : stripSlashes url = String.ofList (url.toList.rdropWhile (· == '/')) := rfl
  constructor
  · rintro rfl
    rw [hdropped, String.toList_ofList]
    refine ⟨⟨(url.toList.rtakeWhile (· == '/')).length, ?_⟩, fun h => ?_⟩
    · have hslashes : url.toList.rtakeWhile (· == '/') =
          List.replicate (url.toList.rtakeWhile (· == '/')).length '/' :=
        List.eq_replicate_length.mpr fun c hc => by simpa using List.mem_rtakeWhile_imp hc
      rw [← hslashes, List.rdropWhile_append_rtakeWhile]
    · simpa using List.rdropWhile_last_not (· == '/') url.toList h
  · rintro ⟨⟨n, hurl⟩, hlast⟩
    rw [hdropped, hurl, rdropWhile_slashes hlast, String.ofList_toList]

end Text

namespace Settings

/-! ## What a document gives -/

section Documents

variable (entries : List (Value × Value))

/-- The entries of the `appservice` table of a document, and after them those of its own. -/
abbrev merged : List (Value × Value) :=
  tableIn "appservice" entries ++ entries

/-- What a document has under a key: the entry of its `appservice` table, if there is that table
and it has the key, and the entry of its own otherwise. -/
inductive Has (key : String) (v : Value) : Prop
  | inner (table : List (Value × Value))
      (htable : lookup? "appservice" entries = some (.map table)) (h : lookup? key table = some v)
  | outer
      (hnone : ∀ table, lookup? "appservice" entries = some (.map table) → lookup? key table = none)
      (h : lookup? key entries = some v)

/-- The logging table of a document has a setting of the journal under its short name. -/
def Logs (name : String) (v : Value) : Prop :=
  ∃ short table, journalNames.lookup name = some short ∧ Has entries "logging" (.map table) ∧
    lookup? short table = some v

/-- What a document gives for a setting: what its logging table has, if that has the setting, and
otherwise what it has under the name itself. -/
inductive Gives (name : String) (v : Value) : Prop
  | logged (h : Logs entries name v)
  | named (hnone : ∀ u, ¬ Logs entries name u) (h : Has entries name v)

end Documents

/-- The form in which what a document gives for a setting is kept. -/
inductive Kept : String → Value → Value → Prop
  | cleared (name : String) (h : name ∈ ["registry_path", "log_file", "log_datefmt"]) :
      Kept name (.text "") .null
  | url (given short : String) (n : Nat)
      (h : given.toList = short.toList ++ List.replicate n '/')
      (hlast : ∀ h : short.toList ≠ [], short.toList.getLast h ≠ '/') :
      Kept "homeserver_url" (.text given) (.text short)
  | seconds (v : Value) (x : Double) (h : v.toDouble = .ok x) :
      Kept "request_timeout_s" v (.real x)
  | milliseconds (v : Value) (n : Int) (h : v.toInt = .ok n) :
      Kept "typing_timeout_ms" v (.int n)
  | other (name : String) (v : Value)
      (hcleared : name ∈ ["registry_path", "log_file", "log_datefmt"] → v ≠ .text "")
      (hurl : name = "homeserver_url" → ∀ given, v ≠ .text given)
      (hseconds : name ≠ "request_timeout_s") (hmilliseconds : name ≠ "typing_timeout_ms") :
      Kept name v v

/-- The settings after a document are what it gives, and where it gives nothing what they were. -/
structure Overlaid (entries : List (Value × Value)) (s s' : Settings) : Prop where
  configPath : s'.configPath = s.configPath
  given : ∀ name ∈ names, ∀ v, Gives entries name v → Kept name v (s'.get name)
  notGiven : ∀ name ∈ names, (∀ v, ¬ Gives entries name v) → s'.get name = s.get name

variable {entries : List (Value × Value)} {s s' : Settings} {name : String} {v w : Value}

theorem has_iff {key : String} :
    Has entries key v ↔ lookup? key (merged entries) = some v := by
  rw [merged, Value.lookup?_append, tableIn]
  constructor
  · intro h
    cases h with
    | inner table htable h => rw [htable, h, Option.some_or]
    | outer hnone h =>
      split
      · next table htable => rw [hnone table htable, h, Option.none_or]
      · exact h
  · intro h
    split at h
    · next table htable =>
      cases hinner : lookup? key table with
      | some u =>
        rw [hinner, Option.some_or] at h
        exact .inner table htable (hinner.trans h)
      | none =>
        rw [hinner, Option.none_or] at h
        refine .outer (fun other hother => ?_) h
        cases htable.symm.trans hother
        exact hinner
    · next hnone => exact .outer (fun table htable => absurd htable (hnone table)) h

theorem logs_iff : Logs entries name v ↔
    ((journalNames.lookup name).bind fun short =>
      lookup? short (tableIn "logging" (merged entries))) = some v := by
  rw [Option.bind_eq_some_iff]
  constructor
  · rintro ⟨short, table, hname, htable, h⟩
    refine ⟨short, hname, ?_⟩
    rw [tableIn, has_iff.mp htable]
    exact h
  · rintro ⟨short, hname, h⟩
    rw [tableIn] at h
    split at h
    · next table htable => exact ⟨short, table, hname, has_iff.mpr htable, h⟩
    · cases h

theorem given?_eq (entries : List (Value × Value)) (name : String) :
    given? entries name = ((journalNames.lookup name).bind fun short =>
      lookup? short (tableIn "logging" (merged entries))).or (lookup? name (merged entries)) :=
  Option.orElse_eq_or

theorem gives_iff : Gives entries name v ↔ given? entries name = some v := by
  rw [given?_eq, Option.or_eq_some_iff, ← logs_iff, ← has_iff, ← Option.not_isSome_iff_eq_none,
    Option.isSome_iff_exists]
  simp only [← logs_iff, not_exists]
  constructor
  · intro h
    cases h with
    | logged h => exact .inl h
    | named hnone h => exact .inr ⟨hnone, h⟩
  · rintro (h | ⟨hnone, h⟩)
    · exact .logged h
    · exact .named hnone h

/-! ## How it is kept -/

theorem normalize_eq_ok_iff : normalize name v = .ok w ↔ Kept name v w := by
  constructor
  · intro h
    unfold normalize at h
    split at h
    · cases h; exact .cleared _ (by decide)
    · cases h; exact .cleared _ (by decide)
    · cases h; exact .cleared _ (by decide)
    · next url =>
      cases h
      obtain ⟨⟨n, hurl⟩, hlast⟩ := Text.stripSlashes_eq_iff.mp rfl
      exact .url url _ n hurl hlast
    · obtain ⟨x, hx, rfl⟩ := map_eq_ok h
      exact .seconds v x hx
    · obtain ⟨n, hn, rfl⟩ := map_eq_ok h
      exact .milliseconds v n hn
    · next hseconds hmilliseconds hregistry hfile hdate hurl =>
      cases h
      refine .other name v (fun hname hv => ?_) (fun hname given hv => hurl given hname hv)
        hseconds hmilliseconds
      simp only [List.mem_cons, List.not_mem_nil, or_false] at hname
      rcases hname with rfl | rfl | rfl
      · exact hregistry rfl hv
      · exact hfile rfl hv
      · exact hdate rfl hv
  · intro h
    cases h with
    | cleared name h =>
      simp only [List.mem_cons, List.not_mem_nil, or_false] at h
      rcases h with rfl | rfl | rfl <;> rfl
    | url given short n h hlast =>
      have hshort : Text.stripSlashes given = short := Text.stripSlashes_eq_iff.mpr ⟨⟨n, h⟩, hlast⟩
      rw [← hshort]
      rfl
    | seconds v x h =>
      have hseconds : normalize "request_timeout_s" v = v.toDouble.map .real := rfl
      rw [hseconds, h]
      rfl
    | milliseconds v n h =>
      have hmilliseconds : normalize "typing_timeout_ms" v = v.toInt.map .int := rfl
      rw [hmilliseconds, h]
      rfl
    | other name v hcleared hurl hseconds hmilliseconds =>
      unfold normalize
      split
      · exact absurd rfl (hcleared (by decide))
      · exact absurd rfl (hcleared (by decide))
      · exact absurd rfl (hcleared (by decide))
      · exact absurd rfl (hurl rfl _)
      · exact absurd rfl hseconds
      · exact absurd rfl hmilliseconds
      · rfl

/-! ## One setting after another -/

theorem get_set_self (h : name ∈ names) (v : Value) (s : Settings) :
    (s.set name v).get name = v := by
  simp only [names, List.mem_cons, List.not_mem_nil, or_false] at h
  rcases h with rfl | rfl | rfl | rfl | rfl | rfl | rfl | rfl | rfl | rfl | rfl | rfl | rfl <;> rfl

theorem get_set_of_ne {other : String} (h : other ≠ name) (v : Value) (s : Settings) :
    (s.set name v).get other = s.get other := by
  unfold set
  split <;> first | rfl | (unfold get; split <;> first | rfl | exact absurd rfl h)

theorem configPath_set (h : name ∈ names) (v : Value) (s : Settings) :
    (s.set name v).configPath = s.configPath := by
  simp only [names, List.mem_cons, List.not_mem_nil, or_false] at h
  rcases h with rfl | rfl | rfl | rfl | rfl | rfl | rfl | rfl | rfl | rfl | rfl | rfl | rfl <;> rfl

theorem ext_get (hpath : s.configPath = s'.configPath)
    (h : ∀ name ∈ names, s.get name = s'.get name) : s = s' := by
  obtain ⟨path, url, domain, token, bot, registry, seconds, milliseconds, level, http, console, file,
    format, date⟩ := s
  simp only [names, List.forall_mem_cons] at h
  obtain ⟨hurl, hdomain, htoken, hbot, hregistry, hseconds, hmilliseconds, hlevel, hhttp, hconsole,
    hfile, hformat, hdate, -⟩ := h
  cases s'
  cases hpath; cases hurl; cases hdomain; cases htoken; cases hbot; cases hregistry; cases hseconds
  cases hmilliseconds; cases hlevel; cases hhttp; cases hconsole; cases hfile; cases hformat
  cases hdate
  rfl

def Becomes (entries : List (Value × Value)) (name : String) (old new : Value) : Prop :=
  match given? entries name with
  | some v => normalize name v = .ok new
  | none => new = old

theorem becomes_iff {old new : Value} : Becomes entries name old new ↔
    (∀ v, Gives entries name v → Kept name v new) ∧
      ((∀ v, ¬ Gives entries name v) → new = old) := by
  simp only [gives_iff, ← normalize_eq_ok_iff]
  rw [Becomes]
  cases given? entries name with
  | some v => simp
  | none => simp

theorem Becomes.unique {old new new' : Value} (h : Becomes entries name old new)
    (h' : Becomes entries name old new') : new = new' := by
  rw [Becomes] at h h'
  cases hv : given? entries name with
  | some v =>
    rw [hv] at h h'
    exact Except.ok.inj (h.symm.trans h')
  | none =>
    rw [hv] at h h'
    exact h.trans h'.symm

theorem overlayOne_ok (hname : name ∈ names) (h : overlayOne entries s name = .ok s') :
    s'.configPath = s.configPath ∧ Becomes entries name (s.get name) (s'.get name) ∧
      ∀ other, other ≠ name → s'.get other = s.get other := by
  rw [overlayOne] at h
  rw [Becomes]
  cases hv : given? entries name with
  | some v =>
    rw [hv] at h
    obtain ⟨w, hw, rfl⟩ := map_eq_ok h
    refine ⟨configPath_set hname w s, ?_, fun other hother => get_set_of_ne hother w s⟩
    rw [get_set_self hname]
    exact hw
  | none =>
    rw [hv] at h
    cases h
    exact ⟨rfl, rfl, fun _ _ => rfl⟩

/-- Settings that are overlaid one after another become what each becomes alone. -/
theorem foldlM_overlayOne_ok {l : List String} (hl : ∀ name ∈ l, name ∈ names) (hnodup : l.Nodup)
    (h : l.foldlM (overlayOne entries) s = .ok s') :
    s'.configPath = s.configPath ∧
      (∀ name ∈ l, Becomes entries name (s.get name) (s'.get name)) ∧
      ∀ name ∉ l, s'.get name = s.get name := by
  -- What comes later leaves a setting alone, and what came before has not touched it yet.
  induction l generalizing s with
  | nil =>
    cases h
    exact ⟨rfl, fun name hname => absurd hname List.not_mem_nil, fun _ _ => rfl⟩
  | cons first rest ih =>
    rw [List.foldlM_cons] at h
    obtain ⟨middle, hfirst, hrest⟩ := bind_eq_ok h
    obtain ⟨hnew, hnodup⟩ := List.nodup_cons.mp hnodup
    obtain ⟨hpath, hbecomes, hothers⟩ := overlayOne_ok (hl first List.mem_cons_self) hfirst
    obtain ⟨hpath', hbecomes', hothers'⟩ :=
      ih (fun name hname => hl name (List.mem_cons_of_mem _ hname)) hnodup hrest
    refine ⟨hpath'.trans hpath, fun name hname => ?_, fun name hname => ?_⟩
    · rcases List.mem_cons.mp hname with rfl | hname
      · rw [hothers' name hnew]
        exact hbecomes
      · rw [← hothers name fun heq => hnew (heq ▸ hname)]
        exact hbecomes' name hname
    · obtain ⟨hne, hname⟩ := not_or.mp (mt List.mem_cons.mpr hname)
      rw [hothers' name hname, hothers name hne]

theorem exists_foldlM_overlayOne {l : List String}
    (h : ∀ name ∈ l, ∀ v, given? entries name = some v → ∃ w, normalize name v = .ok w)
    (s : Settings) : ∃ s', l.foldlM (overlayOne entries) s = .ok s' := by
  induction l generalizing s with
  | nil => exact ⟨s, rfl⟩
  | cons name rest ih =>
    rw [List.foldlM_cons]
    refine ok_bind ?_ fun s => ih (fun name hname => h name (List.mem_cons_of_mem _ hname)) s
    rw [overlayOne]
    cases hv : given? entries name with
    | none => exact ⟨s, rfl⟩
    | some v =>
      obtain ⟨w, hw⟩ := h name List.mem_cons_self v hv
      dsimp only
      rw [hw]
      exact ⟨s.set name w, rfl⟩

theorem nodup_names : names.Nodup := by
  decide

theorem overlaid_of_overlay (h : overlay s (.map entries) = .ok s') : Overlaid entries s s' := by
  obtain ⟨hpath, hbecomes, -⟩ := foldlM_overlayOne_ok (fun _ hname => hname) nodup_names h
  exact ⟨hpath, fun name hname => (becomes_iff.mp (hbecomes name hname)).1,
    fun name hname => (becomes_iff.mp (hbecomes name hname)).2⟩

/-- There is at most one way to overlay settings. -/
theorem Overlaid.unique {s'' : Settings} (h : Overlaid entries s s') (h' : Overlaid entries s s'') :
    s' = s'' := by
  refine ext_get (h.configPath.trans h'.configPath.symm) fun name hname => ?_
  exact (becomes_iff.mpr ⟨h.given name hname, h.notGiven name hname⟩).unique
    (becomes_iff.mpr ⟨h'.given name hname, h'.notGiven name hname⟩)

theorem overlay_eq_ok_iff : overlay s (.map entries) = .ok s' ↔ Overlaid entries s s' := by
  refine ⟨overlaid_of_overlay, fun h => ?_⟩
  obtain ⟨s'', hs''⟩ := exists_foldlM_overlayOne (fun name hname v hv =>
    ⟨_, normalize_eq_ok_iff.mpr (h.given name hname v (gives_iff.mpr hv))⟩) s
  rw [h.unique (overlaid_of_overlay hs'')]
  exact hs''

/-! ## What makes no difference -/

/-- The entries of a table under the given keys, with what a change makes of the values. -/
def sift (changes : List (String × (Value → Value))) (table : List (Value × Value)) :
    List (Value × Value) :=
  table.filterMap fun e =>
    e.1.text?.bind fun key => (changes.lookup key).map fun change => (e.1, change e.2)

def siftIn (changes : List (String × (Value → Value))) : Value → Value
  | .map table => .map (sift changes table)
  | v => v

def keep (keys : List String) : List (String × (Value → Value)) :=
  keys.map fun key => (key, id)

def inLogging : List (String × (Value → Value)) :=
  keep (journalNames.map Prod.snd)

/-- What counts in the `appservice` table: a logging table, and the settings. -/
def inSection : List (String × (Value → Value)) :=
  ("logging", siftIn inLogging) :: keep names

/-- What counts in a document: an `appservice` table, and all that counts in one. -/
def inDocument : List (String × (Value → Value)) :=
  ("appservice", siftIn inSection) :: inSection

theorem lookup_keep {keys : List String} {key : String} (h : key ∈ keys) :
    (keep keys).lookup key = some id := by
  induction keys with
  | nil => cases h
  | cons first rest ih =>
    rw [keep, List.map_cons, List.lookup_cons]
    by_cases hkey : key = first
    · rw [beq_iff_eq.mpr hkey]
    · rw [beq_false_of_ne hkey]
      exact ih ((List.mem_cons.mp h).resolve_left hkey)

theorem lookup?_sift (changes : List (String × (Value → Value))) (key : String)
    (table : List (Value × Value)) :
    lookup? key (sift changes table) =
      (changes.lookup key).bind fun change => (lookup? key table).map change := by
  induction table with
  | nil => cases changes.lookup key <;> rfl
  | cons e rest ih =>
    obtain ⟨k, v⟩ := e
    rw [Value.lookup?_cons]
    cases hk : k.text? with
    | none =>
      have hdropped : sift changes ((k, v) :: rest) = sift changes rest := by
        rw [sift, List.filterMap_cons, hk]
        rfl
      rw [hdropped, ih, if_neg (by simp)]
    | some l =>
      cases hl : changes.lookup l with
      | none =>
        have hdropped : sift changes ((k, v) :: rest) = sift changes rest := by
          rw [sift, List.filterMap_cons, hk, Option.bind_some, hl]
          rfl
        rw [hdropped, ih]
        by_cases hkey : l = key
        · rw [← hkey, hl]
          rfl
        · rw [if_neg (fun h => hkey (Option.some.inj h))]
      | some change =>
        have hkept : sift changes ((k, v) :: rest) = (k, change v) :: sift changes rest := by
          rw [sift, List.filterMap_cons, hk, Option.bind_some, hl]
          rfl
        rw [hkept, Value.lookup?_cons, hk, ih]
        by_cases hkey : l = key
        · rw [if_pos (congrArg some hkey), if_pos (congrArg some hkey), ← hkey, hl]
          rfl
        · rw [if_neg (fun h => hkey (Option.some.inj h)),
            if_neg (fun h => hkey (Option.some.inj h))]

/-- Where a table is sifted, what is in it is sifted. -/
theorem tableIn_sift {changes : List (String × (Value → Value))} {key : String}
    {table table' : List (Value × Value)}
    (h : lookup? key table' = (lookup? key table).map (siftIn changes)) :
    tableIn key table' = sift changes (tableIn key table) := by
  rw [tableIn, tableIn, h]
  cases lookup? key table with
  | none => rfl
  | some v => cases v <;> rfl

theorem lookup?_merged_sift {key : String} (hkey : key ≠ "appservice") :
    lookup? key (merged (sift inDocument entries)) =
      (inSection.lookup key).bind fun change => (lookup? key (merged entries)).map change := by
  have hsection : tableIn "appservice" (sift inDocument entries) =
      sift inSection (tableIn "appservice" entries) :=
    tableIn_sift (lookup?_sift inDocument _ entries)
  have hdocument : inDocument.lookup key = inSection.lookup key := by
    rw [inDocument, List.lookup_cons, beq_false_of_ne hkey]
  rw [merged, Value.lookup?_append, hsection, lookup?_sift, lookup?_sift, hdocument, merged,
    Value.lookup?_append]
  cases inSection.lookup key with
  | none => rfl
  | some change => exact Option.map_or.symm

theorem given?_sift (hname : name ∈ names) :
    given? (sift inDocument entries) name = given? entries name := by
  have hne {key : String} (hkey : key ∉ names) : name ≠ key := fun h => hkey (h ▸ hname)
  have hlogging : tableIn "logging" (merged (sift inDocument entries)) =
      sift inLogging (tableIn "logging" (merged entries)) :=
    tableIn_sift (lookup?_merged_sift (by decide))
  have hkept : inSection.lookup name = some id := by
    rw [inSection, List.lookup_cons, beq_false_of_ne (hne (by decide))]
    exact lookup_keep hname
  have hnamed :
      lookup? name (merged (sift inDocument entries)) = lookup? name (merged entries) := by
    rw [lookup?_merged_sift (hne (by decide)), hkept, Option.bind_some, Option.map_id_fun, id]
  have hshort (short : String) (hshort : journalNames.lookup name = some short) :
      lookup? short (sift inLogging (tableIn "logging" (merged entries))) =
        lookup? short (tableIn "logging" (merged entries)) := by
    obtain ⟨before, after, heq, -⟩ := List.lookup_eq_some_iff.mp hshort
    have hmem : short ∈ journalNames.map Prod.snd := by
      rw [heq]
      simp
    rw [lookup?_sift, inLogging, lookup_keep hmem, Option.bind_some, Option.map_id_fun, id]
  rw [given?_eq, given?_eq, hlogging, hnamed]
  congr 1
  exact Option.bind_congr hshort

theorem overlay_sift (entries : List (Value × Value)) (s : Settings) :
    overlay s (.map (sift inDocument entries)) = overlay s (.map entries) := by
  have hfold (l : List String) (hl : ∀ name ∈ l, name ∈ names) (s : Settings) :
      l.foldlM (overlayOne (sift inDocument entries)) s = l.foldlM (overlayOne entries) s := by
    induction l generalizing s with
    | nil => rfl
    | cons name rest ih =>
      have hone : overlayOne (sift inDocument entries) s name = overlayOne entries s name := by
        rw [overlayOne, overlayOne, given?_sift (hl name List.mem_cons_self)]
      rw [List.foldlM_cons, List.foldlM_cons, hone]
      exact bind_congr fun s => ih (fun name hname => hl name (List.mem_cons_of_mem _ hname)) s
  exact hfold names (fun _ hname => hname) s

/-! ## The settings after a document -/

/-- The settings after a document are what it gives for each, and what they were where it gives
nothing. They do not depend on what else there is in it, and stay when it is overlaid again. -/
theorem overlay_precedence (entries : List (Value × Value)) (s : Settings) :
    (∀ s', overlay s (.map entries) = .ok s' ↔ Overlaid entries s s') ∧
      overlay s (.map (sift inDocument entries)) = overlay s (.map entries) ∧
      ∀ s', overlay s (.map entries) = .ok s' → overlay s' (.map entries) = .ok s' := by
  refine ⟨fun s' => overlay_eq_ok_iff, overlay_sift entries s, fun s' h => ?_⟩
  have hs' := overlaid_of_overlay h
  exact overlay_eq_ok_iff.mpr ⟨rfl, hs'.given, fun _ _ _ => rfl⟩

def layered : List (Value × Value) :=
  [(.text "as_token", .text "outer"), (.text "log_level", .text "ERROR"),
    (.text "log_file", .text "a.log"), (.text "logging", .record [("level", .text "INFO")]),
    (.text "appservice", .record [("as_token", .text "inner"),
      ("homeserver_url", .text "https://hs//"), ("logging", .record [("level", .text "DEBUG")])])]

theorem overlay_precedence_layered :
    ∃ s', overlay {} (.map layered) = .ok s' ∧ Overlaid layered {} s' ∧
      overlay s' (.map layered) = .ok s' ∧ s'.asToken = .text "inner" ∧
      s'.homeserverUrl = .text "https://hs" ∧ s'.logLevel = .text "DEBUG" ∧
      s'.logFile = .text "a.log" := by
  obtain ⟨hoverlaid, -, hagain⟩ := overlay_precedence layered {}
  have h : overlay {} (.map layered) = .ok {
      asToken := .text "inner"
      homeserverUrl := .text "https://hs"
      logLevel := .text "DEBUG"
      logFile := .text "a.log" } := by
    rfl
  exact ⟨_, h, (hoverlaid _).mp h, hagain _ h, rfl, rfl, rfl, rfl⟩

end Settings

end VirtualUsers
