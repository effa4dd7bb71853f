import Mathlib.Data.List.DropRight
import VirtualUsers.CommandLine.Run
import VirtualUsers.Proofs.QuotedTexts
import VirtualUsers.Proofs.Restarts
/-!
# The first settings

The first run writes a settings document, and the next one reads it. All in it is as it is without a
document, but for the path of the registry, which is written between quotes as messages show it.
Main statement: the document gives that path back if and only if it is one of those that quoted
texts recover; other paths make it another path, or no document at all.
-/

namespace VirtualUsers

namespace Toml

open Text (readLineValue)

/-! ## Lines -/

/-- What is read of a document from a line on, after what was read of it before. -/
def readOn (r : Reading) (fuel : Nat) (cs : List Char) : Option Reading :=
  takeLines fuel cs >>= List.foldlM Reading.line r

/-- The line says the same whatever comes before and after it. -/
def Says (line : String) (f : Reading → Option Reading) : Prop :=
  ∀ r fuel rest, readOn r (fuel + 1) (line.toList ++ '\n' :: rest) =
    f r >>= fun r' => readOn r' fuel rest

variable {line key s : String} {f : Reading → Option Reading} {written : List Char}

theorem says_of_takeLine (h : ∀ rest, ∃ l, takeLine (line.toList ++ '\n' :: rest) = some (l, rest) ∧
    ∀ r, Reading.line r l = f r) : Says line f := by
  intro r fuel rest
  obtain ⟨l, hline, hsays⟩ := h rest
  obtain ⟨c, cs, hcs⟩ := List.exists_cons_of_ne_nil
    (List.append_ne_nil_of_right_ne_nil line.toList (List.cons_ne_nil '\n' rest))
  rw [hcs] at hline ⊢
  rw [readOn, takeLines_cons hline, ← hsays]
  cases hrest : takeLines fuel rest with
  | none => cases r.line l <;> simp [readOn, hrest]
  | some lines => cases hl : r.line l <;> simp [readOn, hrest, hl]

theorem says_none (h : ∀ rest, takeLine (line.toList ++ '\n' :: rest) = none) :
    Says line fun _ => none := by
  intro r fuel rest
  have hline := h rest
  obtain ⟨c, cs, hcs⟩ := List.exists_cons_of_ne_nil
    (List.append_ne_nil_of_right_ne_nil line.toList (List.cons_ne_nil '\n' rest))
  rw [hcs] at hline ⊢
  rw [readOn, takeLines, hline]
  · rfl
  · exact List.cons_ne_nil c cs

def isSilent (line : List Char) : Bool :=
  match line with
  | [] => true
  | '#' :: body => !body.any isControl
  | _ => false

theorem says_silent (h : isSilent line.toList = true) : Says line some := by
  refine says_of_takeLine fun rest => ?_
  unfold isSilent at h
  split at h
  · next hline =>
    rw [hline]
    exact ⟨_, rfl, fun r => rfl⟩
  · next body hline =>
    have hcontrol : body.any isControl = false := by simpa using h
    have hbody : '\n' ∉ body := fun hmem => by
      rw [List.any_eq_true.mpr ⟨'\n', hmem, rfl⟩] at hcontrol
      cases hcontrol
    have hskip : skipLineRest ('#' :: (body ++ '\n' :: rest)) = some rest := by
      have hspace : ('#' :: (body ++ '\n' :: rest)).dropWhile isSpace =
          '#' :: (body ++ '\n' :: rest) := rfl
      rw [skipLineRest, hspace, Text.skipComment_line hbody, hcontrol]
      rfl
    have hstep : takeLine ('#' :: (body ++ '\n' :: rest)) =
        skipLineRest ('#' :: (body ++ '\n' :: rest)) >>= fun rest' => some
          (.comment (readPart ('#' :: (body ++ '\n' :: rest)) rest'), rest') := rfl
    rw [hline, List.cons_append, hstep, hskip]
    exact ⟨_, rfl, fun r => rfl⟩
  · cases h

theorem says_table {body : List Char} (hline : line.toList = '[' :: body)
    (hheader : ∀ rest, takeHeader (line.toList ++ '\n' :: rest) =
      some (([key], false), '\n' :: rest)) : Says line (·.beginTable [key]) := by
  refine says_of_takeLine fun rest => ?_
  have hstep (cs : List Char) : takeLine ('[' :: cs) = takeHeader ('[' :: cs) >>= fun p =>
      skipLineRest p.2 >>= fun rest' => some (.header (readPart ('[' :: cs) ('[' :: cs))
        (readPart ('[' :: cs) p.2) p.1.1 p.1.2 (readPart p.2 rest'), rest') := rfl
  have hheader' := hheader rest
  rw [hline, List.cons_append] at hheader' ⊢
  rw [hstep, hheader']
  exact ⟨_, rfl, fun r => rfl⟩

theorem takeLine_entry {cs value : List Char} (hstart : cs.head?.any isBareKeyChar = true)
    (hsign : takeKeyAndSign cs = some ([key], value)) :
    takeLine cs = readValue value >>= fun p => skipLineRest p.2 >>= fun rest =>
      some (.entry (readPart cs value) [key] p.1 (readPart value p.2) (readPart p.2 rest),
        rest) := by
  cases cs with
  | nil => cases hstart
  | cons c cs =>
    have hother {d : Char} (hd : isBareKeyChar d = false) : c ≠ d := by
      rintro rfl
      rw [List.head?_cons, Option.any_some, hd] at hstart
      cases hstart
    have hspace : (c :: cs).dropWhile isSpace = c :: cs := by
      rw [List.dropWhile_cons, if_neg]
      simp [isSpace, hother (d := ' ') rfl, hother (d := '\t') rfl]
    unfold takeLine
    rw [hspace]
    dsimp only
    split
    · next heq => cases heq
    · next heq => exact absurd (List.cons.inj heq).1 (hother rfl)
    · next heq => exact absurd (List.cons.inj heq).1 (hother rfl)
    · next heq => exact absurd (List.cons.inj heq).1 (hother rfl)
    · rw [hsign]
      rfl

/-- An entry, if its value can be read. -/
theorem says_entry (hstart : line.toList.head?.any isBareKeyChar = true)
    (hsign : ∀ rest, takeKeyAndSign (line.toList ++ '\n' :: rest) =
      some ([key], written ++ '\n' :: rest)) {read? : Option Toml}
    (hvalue : ∀ rest, readLineValue (written ++ '\n' :: rest) = read?.map (·, rest)) :
    Says line fun r => read?.bind (r.enter [key]) := by
  have hfirst (rest : List Char) : (line.toList ++ '\n' :: rest).head?.any isBareKeyChar := by
    cases hline : line.toList <;> simp_all
  have hentry (rest : List Char) := takeLine_entry (hfirst rest) (hsign rest)
  cases read? with
  | none =>
    refine says_none fun rest => ?_
    have hnone := hvalue rest
    rw [hentry]
    cases hread : readValue (written ++ '\n' :: rest) with
    | none => rfl
    | some p =>
      have hskip : skipLineRest p.2 = none := by simpa [readLineValue, hread] using hnone
      simp [hskip]
  | some v =>
    refine says_of_takeLine fun rest => ?_
    obtain ⟨⟨v', next⟩, hread, hrest⟩ := Option.bind_eq_some_iff.mp (hvalue rest)
    obtain ⟨rest', hskip, heq⟩ := Option.map_eq_some_iff.mp hrest
    cases heq
    rw [hentry, hread]
    simp only [Option.bind_eq_bind, Option.bind_some, hskip]
    exact ⟨_, rfl, fun r => rfl⟩

theorem says_value {v : Toml} (written : List Char)
    (hstart : line.toList.head?.any isBareKeyChar = true)
    (hsign : ∀ rest, takeKeyAndSign (line.toList ++ '\n' :: rest) =
      some ([key], written ++ '\n' :: rest))
    (hvalue : ∀ rest, readLineValue (written ++ '\n' :: rest) = some (v, rest)) :
    Says line (·.enter [key] v) := by
  have hread (rest : List Char) : readLineValue (written ++ '\n' :: rest) =
      (some v).map (·, rest) := hvalue rest
  exact says_entry hstart hsign hread

theorem says_text (hs : s ≠ "") (hstart : line.toList.head?.any isBareKeyChar = true)
    (hsign : ∀ rest, takeKeyAndSign (line.toList ++ '\n' :: rest) =
      some ([key], writeString s ++ '\n' :: rest)) : Says line (·.enter [key] (.text s)) := by
  refine says_value (writeString s) hstart hsign fun rest => ?_
  have hread : readValue (writeString s ++ '\n' :: rest) = some (.text s, '\n' :: rest) :=
    takeValue_writeString _ hs _
  rw [readLineValue, hread]
  rfl

/-- What the lines of a document say, one after the other, those left out that say nothing. -/
inductive Said : List String → List (Reading → Option Reading) → Prop
  | nil : Said [] []
  | silent {line : String} {lines : List String} {said : List (Reading → Option Reading)}
    (h : isSilent line.toList = true) (hlines : Said lines said) : Said (line :: lines) said
  | cons {line : String} {lines : List String} {f : Reading → Option Reading}
    {said : List (Reading → Option Reading)} (h : Says line f) (hlines : Said lines said) :
    Said (line :: lines) (f :: said)

variable {lines : List String} {said : List (Reading → Option Reading)}

theorem said_of_filter (h : Said (lines.filter fun line => !isSilent line.toList) said) :
    Said lines said := by
  induction lines generalizing said with
  | nil => exact h
  | cons line lines ih =>
    by_cases hsilent : isSilent line.toList = true
    · rw [List.filter_cons_of_neg (by simp [hsilent])] at h
      exact .silent hsilent (ih h)
    · rw [List.filter_cons_of_pos (by simp [hsilent])] at h
      cases h with
      | silent hnot _ => exact absurd hnot hsilent
      | cons hline hlines => exact .cons hline (ih hlines)

theorem Said.append {more : List String} {said' : List (Reading → Option Reading)}
    (h : Said lines said) (h' : Said more said') : Said (lines ++ more) (said ++ said') := by
  induction h with
  | nil => exact h'
  | silent hline _ ih => exact .silent hline ih
  | cons hline _ ih => exact .cons hline ih

def textOf (lines : List String) : List Char :=
  lines.flatMap fun line => line.toList ++ ['\n']

def hear (said : List (Reading → Option Reading)) (r : Reading) : Option Reading :=
  said.foldlM (fun r f => f r) r

theorem Said.readOn (h : Said lines said) (r : Reading) (fuel : Nat) :
    readOn r (fuel + lines.length) (textOf lines) = hear said r := by
  have hstep (r : Reading) (fuel : Nat) {line : String} {f : Reading → Option Reading}
      {lines : List String} (h : Says line f) :
      Toml.readOn r (fuel + (line :: lines).length) (textOf (line :: lines)) =
        f r >>= fun r' => Toml.readOn r' (fuel + lines.length) (textOf lines) := by
    rw [textOf, List.flatMap_cons, List.append_assoc]
    exact h r _ _
  induction h generalizing r with
  | nil => cases fuel <;> rfl
  | silent hline _ ih =>
    rw [hstep r fuel (says_silent hline)]
    exact ih r
  | cons hline _ ih =>
    rw [hstep r fuel hline, hear, List.foldlM_cons]
    simp only [ih]
    rfl

theorem length_le_textOf (lines : List String) : lines.length ≤ (textOf lines).length :=
  length_le_flatMap (fun _ => List.append_ne_nil_of_right_ne_nil _ (List.cons_ne_nil _ _)) lines

/-- The table that lines describe. -/
theorem Said.read? (h : Said lines said) :
    Toml.read? (textOf lines) = (hear said {}).map fun r => .table r.entries := by
  have hfuel :
      (textOf lines).length + 1 = (textOf lines).length + 1 - lines.length + lines.length :=
    (Nat.sub_add_cancel (Nat.le_succ_of_le (length_le_textOf lines))).symm
  have hread := h.readOn {} ((textOf lines).length + 1 - lines.length)
  rw [← hfuel] at hread
  rw [← hread, Toml.read?, Document.parse?, Toml.readOn]
  cases takeLines ((textOf lines).length + 1) (textOf lines) <;> rfl

end Toml

namespace Settings

open Toml

variable {path : String} {read? : Option String}

/-! ## The first document -/

def registryLine (path : String) : String :=
  "registry_path = " ++ Text.quoted path

def openingLines : List String :=
  (initialLines "").take 21

def closingLines : List String :=
  (initialLines "").drop 22

theorem initialLines_eq (path : String) :
    initialLines path = openingLines ++ registryLine path :: closingLines := rfl

/-- What the first document says before it comes to the path of the registry. -/
def openingSaid : List (Reading → Option Reading) :=
  [(·.beginTable ["appservice"]),
    (·.enter ["homeserver_url"] (.text "http://localhost:8008")),
    (·.enter ["homeserver_domain"] (.text "localhost")),
    (·.enter ["as_token"] (.text "")),
    (·.enter ["bot_localpart"] (.text "bridgebot"))]

def closingSaid : List (Reading → Option Reading) :=
  [(·.enter ["request_timeout_s"] (.real (.ofRatio false 30 1))),
    (·.enter ["typing_timeout_ms"] (.int 30000)),
    (·.beginTable ["logging"]),
    (·.enter ["level"] (.text "INFO")),
    (·.enter ["http_level"] (.text "WARNING")),
    (·.enter ["console"] (.bool true)),
    (·.enter ["file"] (.text "")),
    (·.enter ["format"]
      (.text "%(asctime)s %(levelname)s %(name)s[%(threadName)s]: %(message)s")),
    (·.enter ["datefmt"] (.text ""))]

theorem spoken_openingLines : openingLines.filter (fun line => !isSilent line.toList) =
    ["[appservice]", "homeserver_url = \"http://localhost:8008\"",
      "homeserver_domain = \"localhost\"", "as_token = \"\"",
      "bot_localpart = \"bridgebot\""] := by
  decide +kernel

theorem spoken_closingLines : closingLines.filter (fun line => !isSilent line.toList) =
    ["request_timeout_s = 30.0", "typing_timeout_ms = 30000", "[logging]", "level = \"INFO\"",
      "http_level = \"WARNING\"", "console = true", "file = \"\"",
      "format = \"%(asctime)s %(levelname)s %(name)s[%(threadName)s]: %(message)s\"",
      "datefmt = \"\""] := by
  decide +kernel

theorem said_openingLines : Said openingLines openingSaid := by
  apply said_of_filter
  rw [spoken_openingLines]
  exact .cons (says_table rfl fun _ => rfl) <|
    .cons (says_text (by decide) rfl fun _ => rfl) <|
    .cons (says_text (by decide) rfl fun _ => rfl) <|
    .cons (says_value ['"', '"'] rfl (fun _ => rfl) fun _ => rfl) <|
    .cons (says_text (by decide) rfl fun _ => rfl) .nil

theorem said_closingLines : Said closingLines closingSaid := by
  apply said_of_filter
  rw [spoken_closingLines]
  exact .cons (says_value "30.0".toList rfl (fun _ => rfl) fun _ => rfl) <|
    .cons (says_value "30000".toList rfl (fun _ => rfl) fun _ => rfl) <|
    .cons (says_table rfl fun _ => rfl) <|
    .cons (says_text (by decide) rfl fun _ => rfl) <|
    .cons (says_text (by decide) rfl fun _ => rfl) <|
    .cons (says_value "true".toList rfl (fun _ => rfl) fun _ => rfl) <|
    .cons (says_value ['"', '"'] rfl (fun _ => rfl) fun _ => rfl) <|
    .cons (says_text (by decide) rfl fun _ => rfl) <|
    .cons (says_value ['"', '"'] rfl (fun _ => rfl) fun _ => rfl) .nil

def initialEntries (path : String) : List (String × Toml) :=
  [("appservice", .table [
    ("homeserver_url", .text "http://localhost:8008"),
    ("homeserver_domain", .text "localhost"),
    ("as_token", .text ""),
    ("bot_localpart", .text "bridgebot"),
    ("registry_path", .text path),
    ("request_timeout_s", .real (.ofRatio false 30 1)),
    ("typing_timeout_ms", .int 30000)]),
  ("logging", .table [
    ("level", .text "INFO"),
    ("http_level", .text "WARNING"),
    ("console", .bool true),
    ("file", .text ""),
    ("format", .text "%(asctime)s %(levelname)s %(name)s[%(threadName)s]: %(message)s"),
    ("datefmt", .text "")])]

theorem toList_registryLine (path : String) :
    (registryLine path).toList = "registry_path = ".toList ++ (Text.quoted path).toList :=
  String.toList_append

theorem says_registryLine (h : Text.ReadsAs path read?) :
    Says (registryLine path) fun r => (read?.map Toml.text).bind (r.enter ["registry_path"]) := by
  have hstart : (registryLine path).toList.head?.any isBareKeyChar = true := by
    rw [toList_registryLine]
    rfl
  have hsign (rest : List Char) : takeKeyAndSign ((registryLine path).toList ++ '\n' :: rest) =
      some (["registry_path"], (Text.quoted path).toList ++ '\n' :: rest) := by
    rw [toList_registryLine, List.append_assoc, Text.quoted_toList]
    rcases Text.isQuote_quoteFor path.toList with hquote | hquote
    · rw [hquote]
      rfl
    · rw [hquote]
      rfl
  refine says_entry hstart hsign fun rest => ?_
  rw [h rest]
  cases read? <;> rfl

theorem said_initialLines (h : Text.ReadsAs path read?) : Said (initialLines path)
    (openingSaid ++ (fun r => (read?.map Toml.text).bind (r.enter ["registry_path"])) ::
      closingSaid) :=
  said_openingLines.append (.cons (says_registryLine h) said_closingLines)

theorem hear_said (read? : Option String) :
    (hear (openingSaid ++ (fun r => (read?.map Toml.text).bind (r.enter ["registry_path"])) ::
      closingSaid) {}).map (fun r => Toml.table r.entries) =
      read?.map fun path => .table (initialEntries path) := by
  cases read? <;> rfl

theorem toList_initialText (path : String) :
    (initialText path).toList = textOf (initialLines path) := by
  rw [initialText, String.toList_join, List.flatMap_map]
  exact List.flatMap_congr fun line _ => String.toList_append

theorem read?_initialText (h : Text.ReadsAs path read?) : Toml.read? (initialText path).toList =
    read?.map fun path => .table (initialEntries path) := by
  rw [toList_initialText, (said_initialLines h).read?, hear_said]

theorem return_notMem_of_isSilent {cs : List Char} (h : isSilent cs = true) : '\r' ∉ cs := by
  unfold isSilent at h
  split at h
  · exact List.not_mem_nil
  · intro hmem
    rcases List.mem_cons.mp hmem with heq | hmem
    · cases heq
    · rw [List.any_eq_true.mpr ⟨'\r', hmem, rfl⟩] at h
      cases h
  · cases h

theorem return_notMem_of_filter {lines spoken : List String}
    (hspoken : lines.filter (fun line => !isSilent line.toList) = spoken)
    (h : ∀ line ∈ spoken, '\r' ∉ line.toList) : ∀ line ∈ lines, '\r' ∉ line.toList := by
  intro line hline
  by_cases hsilent : isSilent line.toList = true
  · exact return_notMem_of_isSilent hsilent
  · exact h line (hspoken ▸ List.mem_filter.mpr ⟨hline, by simp [hsilent]⟩)

/-- No line end of another kind is in the first document, whatever the path. -/
theorem return_notMem_initialText (path : String) : '\r' ∉ (initialText path).toList := by
  have hopening : ∀ line ∈ openingLines, '\r' ∉ line.toList :=
    return_notMem_of_filter spoken_openingLines (by decide +kernel)
  have hclosing : ∀ line ∈ closingLines, '\r' ∉ line.toList :=
    return_notMem_of_filter spoken_closingLines (by decide +kernel)
  have hregistry : '\r' ∉ (registryLine path).toList := by
    rw [toList_registryLine]
    intro hmem
    rcases List.mem_append.mp hmem with hmem | hmem
    · revert hmem
      decide +kernel
    · cases Text.isControl_of_mem_quoted hmem
  rw [toList_initialText, initialLines_eq]
  intro hmem
  obtain ⟨line, hline, hmem⟩ := List.mem_flatMap.mp hmem
  have hnone : '\r' ∉ line.toList := by
    rcases List.mem_append.mp hline with hline | hline
    · exact hopening line hline
    rcases List.mem_cons.mp hline with rfl | hline
    · exact hregistry
    · exact hclosing line hline
  simp [hnone] at hmem

theorem joinLineEnds_eq {cs : List Char} (h : '\r' ∉ cs) : joinLineEnds cs = cs := by
  induction cs with
  | nil => rfl
  | cons c cs ih =>
    obtain ⟨hc, hcs⟩ := not_or.mp (mt List.mem_cons.mpr h)
    rw [joinLineEnds, ih hcs]
    exact fun rest hreturn => absurd hreturn.symm hc

theorem normalize_registryPath (h : path ≠ "") :
    normalize "registry_path" (.text path) = .ok (.text path) := by
  unfold normalize
  split <;> simp_all

/-- All that the document says is as it is without a document, but for the path of the registry. -/
theorem overlay_initialEntries (file : String) (hpath : path ≠ "") :
    overlay { configPath := .text file } (Toml.table (initialEntries path)).toValue =
      .ok { configPath := .text file, registryPath := .text path } := by
  have hstep : overlayOne (Toml.entryValues (initialEntries path)) { configPath := .text file }
      "registry_path" = .ok { configPath := .text file, registryPath := .text path } := by
    have hgiven : overlayOne (Toml.entryValues (initialEntries path))
        { configPath := .text file } "registry_path" =
        (normalize "registry_path" (.text path)).map fun v =>
          set "registry_path" v { configPath := .text file } := rfl
    rw [hgiven, normalize_registryPath hpath]
    rfl
  have hfold : overlay { configPath := .text file } (Toml.table (initialEntries path)).toValue =
      (overlayOne (Toml.entryValues (initialEntries path)) { configPath := .text file }
        "registry_path" >>= fun s => (names.drop 5).foldlM
          (overlayOne (Toml.entryValues (initialEntries path))) s) := rfl
  rw [hfold, hstep]
  rfl

/-- What the first document gives depends on what is read of the path of the registry. -/
theorem ofText_initialText (file : String) (h : Text.ReadsAs path read?)
    (hne : ∀ t, read? = some t → t ≠ "") : ofText file {} (initialText path) =
      match read? with
      | some t => .ok { configPath := .text file, registryPath := .text t }
      | none => .error .settingsSyntax := by
  rw [ofText, joinLineEnds_eq (return_notMem_initialText path), read?_initialText h]
  cases read? with
  | none => rfl
  | some t => exact overlay_initialEntries file (hne t rfl)

/-- The first document gives the path of the registry back if it is one of those that quoted texts
recover. -/
theorem ofText_initialText_iff (file : String) (hpath : path ≠ "") :
    ofText file {} (initialText path) =
        .ok { configPath := .text file, registryPath := .text path } ↔ Text.Recovers path := by
  obtain ⟨read?, hreads, hrecovers, hne⟩ := Text.exists_readsAs hpath
  rw [ofText_initialText file hreads hne, ← hrecovers]
  cases read? with
  | none => exact iff_of_false nofun nofun
  | some t => simp

theorem load_of_holds {files : FileTree} {file text : String} {base : Settings}
    (h : files.Holds file text) : load files file base = ofText file base text := by
  rw [load, h.read]
  simp only [bind, Except.bind]

end Settings

namespace Environment

variable {env : Environment}

/-- Nothing says where the program keeps its files: no directory is set for them, and no home
directory is known, or one that begins with a tilde. -/
structure HomeUnknown (env : Environment) : Prop where
  override : (env.get? "MXINTENT_HOME").getD "" = ""
  home : ∀ home, (env.get? "HOME" <|> env.accountHome) = some home → home.toList.head? = some '~'

theorem homeDirectory_error_iff :
    env.homeDirectory = .error .noHome ↔ ∀ home,
      (env.get? "HOME" <|> env.accountHome) = some home → home.toList.head? = some '~' := by
  unfold homeDirectory expandHome
  cases (env.get? "HOME" <|> env.accountHome) with
  | none => simp
  | some home =>
    -- The slashes at its end are all that is taken from the home directory.
    have hprefix : Text.dropRight (· == '/') home.toList <+: home.toList := List.rdropWhile_prefix _ _
    cases hkept : Text.dropRight (· == '/') home.toList with
    | nil =>
      have hslashes : ∀ c ∈ home.toList, c = '/' := by
        simpa using List.rdropWhile_eq_nil_iff.mp hkept
      have hhead : home.toList.head? ≠ some '~' := fun h =>
        absurd (hslashes '~' (List.mem_of_head? h)) (by decide)
      simpa [hkept] using hhead
    | cons c cs =>
      have hhead : home.toList.head? = some c := by
        obtain ⟨rest, hrest⟩ := hprefix
        rw [← hrest, hkept]
        rfl
      simp [hhead, hkept]

example : ({ entries := [("HOME", "~root/")] } : Environment).homeDirectory = .error .noHome := by
  rfl

theorem homeDirectory_cases (env : Environment) :
    env.homeDirectory = .error .noHome ∨ ∃ home, env.homeDirectory = .ok home := by
  rw [homeDirectory]
  split
  · exact .inl rfl
  · exact .inr ⟨_, rfl⟩

theorem programDirectory_of_override {directory : String}
    (h : (env.get? "MXINTENT_HOME").getD "" = directory) (hne : directory ≠ "") :
    env.programDirectory = .ok (Path.normalize directory) := by
  subst h
  exact if_pos (bne_iff_ne.mpr hne)

theorem programDirectory_cases (env : Environment) :
    env.HomeUnknown ∧ env.programDirectory = .error .noHome ∨
      ¬env.HomeUnknown ∧ ∃ directory, env.programDirectory = .ok directory := by
  by_cases hoverride : (env.get? "MXINTENT_HOME").getD "" = ""
  · have hdirectory : env.programDirectory = env.homeDirectory.map (Path.child · ".mxintent") :=
      if_neg fun h => bne_iff_ne.mp h hoverride
    rw [hdirectory]
    rcases env.homeDirectory_cases with hhome | ⟨home, hhome⟩
    · exact .inl ⟨⟨hoverride, homeDirectory_error_iff.mp hhome⟩, by rw [hhome]; rfl⟩
    · refine .inr ⟨fun h => ?_, Path.child home ".mxintent", by rw [hhome]; rfl⟩
      cases hhome.symm.trans (homeDirectory_error_iff.mpr h.home)
  · exact .inr ⟨fun h => hoverride h.override, _, programDirectory_of_override rfl hoverride⟩

/-- The path of the registry ends with the name of its file. -/
theorem registryPath_ne_empty {path : String} (h : env.registryPath = .ok path) : path ≠ "" := by
  obtain ⟨directory, -, rfl⟩ := map_eq_ok h
  have hname : Path.names "registered.toml" = ["registered.toml"] := by decide +kernel
  have hends : ∃ start, Path.child directory "registered.toml" = start ++ "registered.toml" := by
    rw [Path.child, hname]
    by_cases hnone : Path.names directory = []
    · rw [hnone, List.nil_append, String.intercalate_singleton]
      exact ⟨_, rfl⟩
    · rw [String.intercalate_append_of_ne_nil hnone (List.cons_ne_nil _ _),
        String.intercalate_singleton, ← String.append_assoc]
      exact ⟨_, rfl⟩
  obtain ⟨start, hpath⟩ := hends
  rw [hpath]
  intro hempty
  exact absurd (String.append_eq_empty_iff.mp hempty).2 (by decide)

end Environment

namespace CommandLine

variable {b : Bridge} {files : FileTree} {path settings registry : String}

theorem outcome_writeInitial (registry : String) (h : Registry.CanMake files path) :
    ∃ made, (writeInitial registry path).outcome files = (.ok (), made) ∧
      made.Holds path (Settings.initialText registry) := by
  obtain ⟨dirs, made, hdirs, hmade⟩ := h
  obtain ⟨written, hwrite, hholds⟩ := FileTree.write_again hmade (Settings.initialText registry)
  refine ⟨_, ?_, hholds.setMode FileTree.privateFileMode⟩
  by_cases hdirectory : Path.directoryPart path = ""
  · rw [if_pos hdirectory] at hdirs
    cases hdirs
    simp [writeInitial, hdirectory, hwrite]
  · rw [if_neg hdirectory] at hdirs
    simp [writeInitial, hdirectory, hdirs, hwrite]

/-- Without a place for its files the program stops before it looks at its arguments. -/
theorem outcome_run_homeUnknown (arguments : List String) (h : b.environment.HomeUnknown) :
    (run arguments).outcome b = (.error .noHome, b) := by
  rcases b.environment.programDirectory_cases with ⟨-, hunknown⟩ | ⟨hknown, -⟩
  · have hsettings : b.environment.settingsPath = .error .noHome := by
      rw [Environment.settingsPath, hunknown]
      rfl
    rw [run]
    simp only [Attempt.outcome_bind, Attempt.outcome_get, Attempt.follow_ok,
      Attempt.outcome_ofResult, hsettings, Attempt.follow_error]
  · exact absurd h hknown

/-- The first run writes the first document, and nothing else. -/
theorem outcome_first_run {arguments : List String} {a : Arguments}
    (hsettings : b.environment.settingsPath = .ok settings)
    (hregistry : b.environment.registryPath = .ok registry)
    (hread : Arguments.read arguments = .ok a) (hpath : a.config.getD settings = path)
    (habsent : b.files.exists? path = false) (hmake : Registry.CanMake b.files path) :
    ∃ b', (run arguments).outcome b = (.ok { status := 0 }, b') ∧
      b'.files.Holds path (Settings.initialText registry) := by
  obtain ⟨made, hwrite, hholds⟩ := outcome_writeInitial registry hmake
  let noted := (b.journal.say "Created default mxintent config. Edit it before running again:").say
    ("- Config: " ++ path)
  refine ⟨{ b with files := made, journal := noted }, ?_, hholds⟩
  rw [run]
  simp only [Attempt.outcome_bind, Attempt.outcome_get, Attempt.follow_ok, Attempt.outcome_ofResult,
    hsettings, hread, runArguments, hpath, habsent, Bool.false_eq_true, if_false, hregistry,
    Attempt.outcome_within, hwrite, tell, Attempt.outcome_modify, Attempt.outcome_pure]
  rfl

/-- Where no home directory is known the first run fails and changes nothing. Elsewhere it leaves a
document that the next one loads. It is as if there were no document, but with the path of the
registry as it is by default, if and only if quoted texts recover that path. -/
theorem first_settings_load {arguments : List String} {a : Arguments}
    (hread : Arguments.read arguments = .ok a) :
    (b.environment.HomeUnknown → (run arguments).outcome b = (.error .noHome, b)) ∧
    (¬b.environment.HomeUnknown → ∃ settings registry,
      b.environment.settingsPath = .ok settings ∧ b.environment.registryPath = .ok registry ∧
      ∀ path, a.config.getD settings = path → b.files.exists? path = false →
        Registry.CanMake b.files path →
        ∃ b', (run arguments).outcome b = (.ok { status := 0 }, b') ∧
          b'.files.Holds path (Settings.initialText registry) ∧
          (Settings.load b'.files path {} = .ok {
              configPath := .text path, registryPath := .text registry } ↔
            Text.Recovers registry)) := by
  refine ⟨outcome_run_homeUnknown arguments, fun hknown => ?_⟩
  rcases b.environment.programDirectory_cases with ⟨hunknown, -⟩ | ⟨-, directory, hdirectory⟩
  · exact absurd hunknown hknown
  have hsettings : b.environment.settingsPath = .ok (Path.child directory "mxintent.toml") := by
    rw [Environment.settingsPath, hdirectory]
    rfl
  have hregistry : b.environment.registryPath = .ok (Path.child directory "registered.toml") := by
    rw [Environment.registryPath, hdirectory]
    rfl
  refine ⟨_, _, hsettings, hregistry, ?_⟩
  intro path hpath habsent hmake
  obtain ⟨b', hrun, hholds⟩ := outcome_first_run hsettings hregistry hread hpath habsent hmake
  refine ⟨b', hrun, hholds, ?_⟩
  rw [Settings.load_of_holds hholds]
  exact Settings.ofText_initialText_iff path (Environment.registryPath_ne_empty hregistry)

/-- The first run of a program that is told where its settings are, but not where its registry
is. -/
def Example.arguments : List String :=
  ["--config", "settings.toml", "whoami"]

def Example.homeAt (directory : String) : Bridge where
  environment := { entries := [("MXINTENT_HOME", directory)] }

theorem Example.programDirectory_homeAt {directory : String} (h : directory ≠ "") :
    (Example.homeAt directory).environment.programDirectory = .ok (Path.normalize directory) :=
  Environment.programDirectory_of_override rfl h

theorem Example.read_arguments : ∃ a, Arguments.read Example.arguments = .ok a ∧
    a.config = some "settings.toml" := by
  have hconfig : (Arguments.read Example.arguments).toOption.map (·.config) =
      some (some "settings.toml") := by
    decide +kernel
  cases hread : Arguments.read Example.arguments with
  | error e =>
    rw [hread] at hconfig
    cases hconfig
  | ok a =>
    rw [hread] at hconfig
    exact ⟨a, rfl, Option.some.inj hconfig⟩

theorem Example.canMake_settings : Registry.CanMake {} "settings.toml" := by
  have hdirectory : Path.directoryPart "settings.toml" = "" := by decide +kernel
  have hleads : FileTree.Leads {} "settings.toml" ["settings.toml"] :=
    ⟨rfl, nofun, by decide +kernel⟩
  obtain ⟨mode, hwrite⟩ := FileTree.write_of_leads hleads ""
  exact ⟨{}, _, if_pos hdirectory, hwrite⟩

theorem first_settings_load_quote :
    ∃ b', (run Example.arguments).outcome (Example.homeAt "/it's") = (.ok { status := 0 }, b') ∧
      Settings.load b'.files "settings.toml" {} = .ok {
        configPath := .text "settings.toml", registryPath := .text "/it's/registered.toml" } := by
  have hplace : (Example.homeAt "/it's").environment.registryPath =
      .ok "/it's/registered.toml" := by
    rw [Environment.registryPath, Example.programDirectory_homeAt (by decide)]
    exact congrArg Except.ok (by decide +kernel)
  obtain ⟨a, hread, hconfig⟩ := Example.read_arguments
  obtain ⟨settings, registry, -, hregistry, hload⟩ :=
    (first_settings_load (b := Example.homeAt "/it's") hread).2 fun h =>
      absurd h.override (by decide +kernel)
  obtain ⟨b', hrun, -, hload⟩ := hload "settings.toml" (by rw [hconfig]; rfl) rfl
    Example.canMake_settings
  cases hregistry.symm.trans hplace
  exact ⟨b', hrun, hload.mpr (by decide +kernel)⟩

/-- A backslash in the path of the registry is doubled. -/
theorem backslash_doubled :
    ∃ b', (run Example.arguments).outcome (Example.homeAt "/a\\b") = (.ok { status := 0 }, b') ∧
      (Example.homeAt "/a\\b").environment.registryPath = .ok "/a\\b/registered.toml" ∧
      Settings.load b'.files "settings.toml" {} = .ok {
        configPath := .text "settings.toml"
        registryPath := .text "/a\\\\b/registered.toml" } := by
  have hdirectory := Example.programDirectory_homeAt (show "/a\\b" ≠ "" by decide)
  have hregistry : (Example.homeAt "/a\\b").environment.registryPath =
      .ok "/a\\b/registered.toml" := by
    rw [Environment.registryPath, hdirectory]
    exact congrArg Except.ok (by decide +kernel)
  have hsettings : (Example.homeAt "/a\\b").environment.settingsPath =
      .ok (Path.child (Path.normalize "/a\\b") "mxintent.toml") := by
    rw [Environment.settingsPath, hdirectory]
    rfl
  have hplain : "/a\\b/registered.toml" ≠ "" ∧ '\'' ∉ "/a\\b/registered.toml".toList := by
    decide +kernel
  have hshown : String.ofList ("/a\\b/registered.toml".toList.flatMap (Text.escapeChar '\'')) =
      "/a\\\\b/registered.toml" := by
    decide +kernel
  have hreads := Text.readsAs_literal hplain.1 hplain.2
  rw [hshown] at hreads
  obtain ⟨a, hread, hconfig⟩ := Example.read_arguments
  obtain ⟨b', hrun, hholds⟩ := outcome_first_run hsettings hregistry hread
    (by rw [hconfig]; rfl) rfl Example.canMake_settings
  refine ⟨b', hrun, hregistry, ?_⟩
  rw [Settings.load_of_holds hholds, Settings.ofText_initialText _ hreads fun t ht => by
    cases ht; decide]

end CommandLine

end VirtualUsers
