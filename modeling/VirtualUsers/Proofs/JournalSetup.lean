import VirtualUsers.Journal
import VirtualUsers.Proofs.FileGrowth
/-!
# Setting the journal up

A call that sets the journal up is refused before anything of the journal is changed, or it leaves
just what its settings ask for. Main statement: after any calls and notes the journal is as the last
call that returned has left it, and a note goes to each of the destinations of that call once.

There is one way to fail in between. The levels are read when the handlers are in place already, and
a level without a text cannot be read.
-/

namespace VirtualUsers.Journal

/-! ## Calls -/

/-- What decides where notes go and which of them count. -/
structure Arrangement where
  handlers : List Handler
  level : Value
  httpLevel : Value
  requestsLevel : Value

def arrangement (j : Journal) : Arrangement :=
  ⟨j.handlers, j.level, j.httpLevel, j.requestsLevel⟩

/-- A call that sets the journal up. -/
structure Setup where
  environment : Environment := {}
  settings : Settings := {}
  level : Value := .null
  file : Value := .null

namespace Setup

def attempt (c : Setup) : Attempt (Journal × FileTree) Unit :=
  configure c.environment c.settings c.level c.file

def path? (c : Setup) : Option String :=
  (textOf? c.file <|> textOf? c.settings.logFile).map (resolve c.environment)

def destinations (c : Setup) : List Destination :=
  (if c.settings.logConsole.truthy then [.console] else []) ++ (c.path?.map .file).toList

def handler (c : Setup) (destination : Destination) : Handler where
  destination
  format := formatOf c.settings
  dateFormat := textOf? c.settings.logDateFormat

def handlers (c : Setup) : List Handler :=
  c.destinations.map c.handler

def levelValue (c : Setup) : Value :=
  c.level.orElse c.settings.logLevel

def arrangement (c : Setup) : Arrangement where
  handlers := c.handlers
  level := parseLevel c.levelValue 20
  httpLevel := parseLevel c.settings.logHttpLevel 30
  requestsLevel := parseLevel c.settings.logHttpLevel 30

/-- The journal as the call is to leave it. What the console shows stays. -/
def arrange (c : Setup) (j : Journal) : Journal :=
  { j with
    handlers := c.arrangement.handlers
    level := c.arrangement.level
    httpLevel := c.arrangement.httpLevel
    requestsLevel := c.arrangement.requestsLevel }

/-- The journal where the levels cannot be read: they are read one after the other, when the
handlers are in place. -/
def arrangePart (c : Setup) (j : Journal) : Journal :=
  { j with
    handlers := c.handlers
    level := if hasLevel c.levelValue then parseLevel c.levelValue 20 else j.level }

structure HasLevels (c : Setup) : Prop where
  level : hasLevel c.levelValue
  http : hasLevel c.settings.logHttpLevel

/-- What keeps the destinations from being opened. -/
inductive Unopened (c : Setup) (files : FileTree) : Failure → Prop where
  | text {e} (h : readPath? c.settings c.file = .error e) : Unopened c files e
  | directory {path e} (hpath : c.path? = some path)
    (h : files.makeDirectory (Path.parent path) = .error e) : Unopened c files e
  | file {path made e} (hpath : c.path? = some path)
    (hmade : files.makeDirectory (Path.parent path) = .ok made)
    (h : made.append path "" = .error e) : Unopened c files e

inductive Unformed (c : Setup) : Failure → Prop where
  | format (h : c.settings.logFormat.hasText = false) : Unformed c .badValue
  | dateFormat (h : c.settings.logDateFormat.hasText = false) : Unformed c .badValue
  | field (h : hasField (formatOf c.settings).toList = false) :
    Unformed c (.lineFormat (formatOf c.settings))

def Refused (c : Setup) (files : FileTree) (e : Failure) : Prop :=
  c.Unopened files e ∨ c.Unformed e

end Setup

variable {c : Setup} {j : Journal} {files files' : FileTree} {path : String} {n : Note}

/-! ## What comes of a call -/

theorem readForm_cases (c : Setup) :
    (∃ e, readForm c.settings = .error e ∧ c.Unformed e) ∨
      readForm c.settings = .ok (formatOf c.settings, textOf? c.settings.logDateFormat) ∧
        ∀ e, ¬c.Unformed e := by
  rw [readForm, readText, readText?]
  cases hformat : c.settings.logFormat.hasText with
  | false => exact .inl ⟨_, rfl, .format hformat⟩
  | true =>
    cases hdate : c.settings.logDateFormat.hasText with
    | false => exact .inl ⟨_, rfl, .dateFormat hdate⟩
    | true =>
      cases hfield : hasField (formatOf c.settings).toList with
      | false => exact .inl ⟨_, rfl, .field hfield⟩
      | true =>
        refine .inr ⟨rfl, ?_⟩
        rintro e (h | h | h)
        · cases hformat.symm.trans h
        · cases hdate.symm.trans h
        · cases hfield.symm.trans h

theorem readText?_eq_ok {v : Value} {text : Option String} (h : readText? v = .ok text) :
    textOf? v = text := by
  unfold readText? at h
  split at h
  · exact Except.ok.inj h
  · cases h

theorem readPath?_eq_ok {s : Settings} {file : Value} {text : Option String}
    (h : readPath? s file = .ok text) : (textOf? file <|> textOf? s.logFile) = text := by
  obtain ⟨given, hgiven, h⟩ := bind_eq_ok h
  rw [readText?_eq_ok hgiven]
  cases given with
  | some path => exact Except.ok.inj h
  | none => exact readText?_eq_ok h

/-- The file is opened, or something keeps it from being opened. In any case no file is lost. -/
theorem openFile_cases {text : String} (htext : resolve c.environment text = path)
    (hpath : c.path? = some path) (files : FileTree) :
    ∃ files', files.Grows files' ∧
      ((∃ e, (openFile c.environment text).outcome files = (.error e, files') ∧
          c.Unopened files e) ∨
        (openFile c.environment text).outcome files = (.ok (.file path), files') ∧
          (∃ kept, files'.Holds path kept) ∧
          ∃ made opened, files.makeDirectory (Path.parent path) = .ok made ∧
            made.append path "" = .ok opened) := by
  cases hmake : files.makeDirectory (Path.parent path) with
  | error e =>
    exact ⟨files, .refl files, .inl ⟨e, by simp [openFile, htext, hmake], .directory hpath hmake⟩⟩
  | ok made =>
    have hmade := FileTree.grows_makeDirectory hmake
    cases happend : made.append path "" with
    | error e =>
      exact ⟨made, hmade,
        .inl ⟨e, by simp [openFile, htext, hmake, happend], .file hpath hmake happend⟩⟩
    | ok opened =>
      let shut := opened.setMode path FileTree.privateFileMode
      have hgrows : files.Grows shut :=
        (hmade.trans (FileTree.grows_update happend)).trans (opened.grows_setMode _ _)
      obtain ⟨kept, hholds⟩ := FileTree.holds_of_update happend
      exact ⟨shut, hgrows, .inr ⟨by simp [openFile, htext, hmake, happend, Except.map, shut],
        ⟨kept, hholds.setMode _⟩, made, opened, rfl, happend⟩⟩

theorem openAll_cases (c : Setup) (files : FileTree) :
    ∃ files', files.Grows files' ∧
      ((∃ e, (openAll c.environment c.settings c.file).outcome files = (.error e, files') ∧
          c.Unopened files e) ∨
        (openAll c.environment c.settings c.file).outcome files = (.ok c.destinations, files') ∧
          (∀ path, c.path? = some path → ∃ kept, files'.Holds path kept) ∧
          ∀ e, ¬c.Unopened files e) := by
  cases hread : readPath? c.settings c.file with
  | error e => exact ⟨files, .refl files, .inl ⟨e, by simp [openAll, hread], .text hread⟩⟩
  | ok text =>
    have hpath : c.path? = text.map (resolve c.environment) := by
      rw [Setup.path?, readPath?_eq_ok hread]
    cases text with
    | none =>
      refine ⟨files, .refl files, .inr ⟨?_, ?_, ?_⟩⟩
      · simp [openAll, hread, Setup.destinations, hpath]
      · rw [hpath]
        exact nofun
      · rintro e (h | ⟨h, -⟩ | ⟨h, -, -⟩)
        · cases hread.symm.trans h
        · cases hpath.symm.trans h
        · cases hpath.symm.trans h
    | some text =>
      obtain ⟨files', hgrows,
          ⟨e, hopen, hunopened⟩ | ⟨hopen, hkept, made, opened, hmake, happend⟩⟩ :=
        openFile_cases rfl hpath files
      · exact ⟨files', hgrows, .inl ⟨e, by simp [openAll, hread, hopen, Except.map], hunopened⟩⟩
      · refine ⟨files', hgrows, .inr ⟨?_, ?_, ?_⟩⟩
        · simp [openAll, hread, hopen, Setup.destinations, hpath, Except.map]
        · rintro path h
          cases hpath.symm.trans h
          exact hkept
        · rintro e (h | ⟨h, h'⟩ | ⟨h, h', h''⟩)
          · cases hread.symm.trans h
          · cases hpath.symm.trans h
            cases hmake.symm.trans h'
          · cases hpath.symm.trans h
            cases hmake.symm.trans h'
            cases happend.symm.trans h''

theorem prepare_cases (c : Setup) (files : FileTree) :
    ∃ files', files.Grows files' ∧
      ((∃ e, (prepare c.environment c.settings c.file).outcome files = (.error e, files') ∧
          c.Refused files e) ∨
        (prepare c.environment c.settings c.file).outcome files = (.ok c.handlers, files') ∧
          (∀ path, c.path? = some path → ∃ kept, files'.Holds path kept) ∧
          ∀ e, ¬c.Refused files e) := by
  obtain ⟨files', hgrows, ⟨e, hopen, hunopened⟩ | ⟨hopen, hkept, hopened⟩⟩ := openAll_cases c files
  · exact ⟨files', hgrows, .inl ⟨e, by simp [prepare, hopen], .inl hunopened⟩⟩
  · rcases readForm_cases c with ⟨e, hform, hunformed⟩ | ⟨hform, hformed⟩
    · refine ⟨files', hgrows, .inl ⟨e, ?_, .inr hunformed⟩⟩
      simp [prepare, hopen, hform, Except.map]
    · refine ⟨files', hgrows, .inr ⟨?_, hkept, fun e h => h.elim (hopened e) (hformed e)⟩⟩
      simp [prepare, hopen, hform, Except.map, Setup.handlers, Setup.handler]

/-- A call is refused with the journal as it was, or it gets all ready. Then it returns if the
levels can be read. -/
theorem attempt_cases (c : Setup) (j : Journal) (files : FileTree) :
    ∃ files', files.Grows files' ∧
      ((∃ e, c.attempt.outcome (j, files) = (.error e, (j, files')) ∧ c.Refused files e) ∨
        (∀ path, c.path? = some path → ∃ kept, files'.Holds path kept) ∧
          (∀ e, ¬c.Refused files e) ∧
          (c.HasLevels ∧ c.attempt.outcome (j, files) = (.ok (), (c.arrange j, files')) ∨
            ¬c.HasLevels ∧
              c.attempt.outcome (j, files) = (.error .badValue, (c.arrangePart j, files')))) := by
  obtain ⟨files', hgrows, ⟨e, hprepare, hrefused⟩ | ⟨hprepare, hkept, haccepted⟩⟩ :=
    prepare_cases c files
  · exact ⟨files', hgrows, .inl ⟨e, by simp [Setup.attempt, configure, hprepare], hrefused⟩⟩
  · refine ⟨files', hgrows, .inr ⟨hkept, haccepted, ?_⟩⟩
    by_cases hlevel : hasLevel c.levelValue
    · have hroot : readLevel (c.level.orElse c.settings.logLevel) 20 =
          .ok (parseLevel c.levelValue 20) := if_pos hlevel
      by_cases hhttp : hasLevel c.settings.logHttpLevel
      · have hlibraries : readLevel c.settings.logHttpLevel 30 =
            .ok (parseLevel c.settings.logHttpLevel 30) := if_pos hhttp
        refine .inl ⟨⟨hlevel, hhttp⟩, ?_⟩
        simp [Setup.attempt, configure, hprepare, hroot, hlibraries, Setup.arrange,
          Setup.arrangement]
      · have hlibraries : readLevel c.settings.logHttpLevel 30 = .error .badValue := if_neg hhttp
        refine .inr ⟨fun h => hhttp h.http, ?_⟩
        simp [Setup.attempt, configure, hprepare, hroot, hlibraries, Setup.arrangePart, hlevel]
    · have hroot : readLevel (c.level.orElse c.settings.logLevel) 20 = .error .badValue :=
        if_neg hlevel
      refine .inr ⟨fun h => hlevel h.level, ?_⟩
      simp [Setup.attempt, configure, hprepare, hroot, Setup.arrangePart, hlevel]

/-! ## Notes -/

theorem Handler.write_keeps (n : Note) (s : Journal × FileTree) (h : Handler) :
    (h.write n s).1.arrangement = s.1.arrangement ∧ s.2.Grows (h.write n s).2 := by
  obtain ⟨j, files⟩ := s
  unfold Handler.write
  cases h.line? n with
  | none => exact ⟨rfl, .refl files⟩
  | some line =>
    cases h.destination with
    | console => exact ⟨rfl, .refl files⟩
    | foreign name => exact ⟨rfl, .refl files⟩
    | file path =>
      refine ⟨rfl, ?_⟩
      change files.Grows ((files.append path line).toOption.getD files)
      cases happend : files.append path line with
      | error e => exact .refl files
      | ok made => exact FileTree.grows_update happend

theorem write_keeps (j : Journal) (files : FileTree) (n : Note) :
    (j.write files n).1.arrangement = j.arrangement ∧ files.Grows (j.write files n).2 := by
  have hhandlers (handlers : List Handler) (s : Journal × FileTree) :
      (handlers.foldl (Handler.write n) s).1.arrangement = s.1.arrangement ∧
        s.2.Grows (handlers.foldl (Handler.write n) s).2 := by
    induction handlers generalizing s with
    | nil => exact ⟨rfl, .refl s.2⟩
    | cons h rest ih =>
      obtain ⟨hsame, hgrows⟩ := h.write_keeps n s
      obtain ⟨hrest, hmore⟩ := ih (h.write n s)
      exact ⟨hrest.trans hsame, hgrows.trans hmore⟩
  unfold write
  split
  · exact ⟨rfl, .refl files⟩
  · split
    · exact ⟨by split <;> rfl, .refl files⟩
    · exact hhandlers j.handlers (j, files)

namespace Setup

def counts (c : Setup) (n : Note) : Bool :=
  (c.arrange {}).counts n

def line? (c : Setup) (n : Note) : Option String :=
  (c.handler .console).line? n

/-- A line has gone once to each of the destinations, and nowhere else. -/
structure Delivered (c : Setup) (line : String) (before after : Journal × FileTree) : Prop where
  console : after.1 =
    if c.settings.logConsole.truthy then { before.1 with console := before.1.console ++ line }
    else before.1
  file : ∀ path, c.path? = some path → before.2.append path line = .ok after.2 ∧
    ∃ text, before.2.read path = .ok text ∧ after.2.read path = .ok (text ++ line)
  noFile : c.path? = none → after.2 = before.2

/-- What becomes of a note after the call. -/
inductive Noted (c : Setup) (n : Note) (before : Journal × FileTree) :
    Journal × FileTree → Prop where
  | ignored (h : c.counts n = false) : Noted c n before before
  | alone (h : c.counts n) (hnowhere : c.destinations = []) :
    Noted c n before
      (if 30 ≤ n.level && !isHttp n.name then before.1.say n.text else before.1, before.2)
  | lost (h : c.counts n) (hsomewhere : c.destinations ≠ []) (hline : c.line? n = none) :
    Noted c n before before
  | delivered {line after} (h : c.counts n) (hsomewhere : c.destinations ≠ [])
    (hline : c.line? n = some line) (hdelivered : c.Delivered line before after) :
    Noted c n before after

/-- The journal is as the call has left it, and the file is there. -/
structure InForce (c : Setup) (s : Journal × FileTree) : Prop where
  arrangement : s.1.arrangement = c.arrangement
  opened : ∀ path, c.path? = some path → ∃ kept, s.2.Holds path kept

variable {s s' : Journal × FileTree}

theorem InForce.keep (h : c.InForce s) (hsame : s'.1.arrangement = s.1.arrangement)
    (hgrows : s.2.Grows s'.2) : c.InForce s' := by
  refine ⟨hsame.trans h.arrangement, fun path hpath => ?_⟩
  obtain ⟨kept, hkept⟩ := h.opened path hpath
  exact hgrows.holds hkept

theorem InForce.counts_eq (h : c.InForce s) (n : Note) : s.1.counts n = c.counts n := by
  have hlevels : ∀ j j' : Journal, j.arrangement = j'.arrangement → j.counts n = j'.counts n := by
    rintro ⟨⟩ ⟨⟩ hsame
    cases hsame
    rfl
  exact hlevels _ _ h.arrangement

theorem foldl_write_lost {handlers : List Handler} (h : ∀ h ∈ handlers, h.line? n = none)
    (s : Journal × FileTree) : handlers.foldl (Handler.write n) s = s := by
  induction handlers with
  | nil => rfl
  | cons first rest ih =>
    have hfirst : first.write n s = s := by
      rw [Handler.write, h first List.mem_cons_self]
    rw [List.foldl_cons, hfirst]
    exact ih fun h' hmem => h h' (List.mem_cons_of_mem _ hmem)

theorem write_console {line : String} (hline : c.line? n = some line) (s : Journal × FileTree) :
    (c.handler .console).write n s = ({ s.1 with console := s.1.console ++ line }, s.2) := by
  rw [Handler.write, show (c.handler .console).line? n = some line from hline]
  rfl

theorem write_file {line : String} {made : FileTree} (hline : c.line? n = some line)
    (happend : s.2.append path line = .ok made) :
    (c.handler (.file path)).write n s = (s.1, made) := by
  rw [Handler.write, show (c.handler (.file path)).line? n = some line from hline]
  change (s.1, (s.2.append path line).toOption.getD s.2) = _
  rw [happend]
  rfl

/-- A note with a line goes to each of the destinations in turn. -/
theorem InForce.delivered {line : String} (h : c.InForce s) (hline : c.line? n = some line) :
    c.Delivered line s (c.handlers.foldl (Handler.write n) s) := by
  -- The console comes first. What is shown there changes no file, so the file is as it was.
  let shown : Journal × FileTree :=
    (if c.settings.logConsole.truthy then { s.1 with console := s.1.console ++ line } else s.1, s.2)
  have hconsole : (if c.settings.logConsole.truthy then [Destination.console] else []).foldl
      (fun s d => (c.handler d).write n s) s = shown := by
    simp only [shown]
    split
    · rw [List.foldl_cons, List.foldl_nil, write_console hline]
    · rfl
  rw [handlers, List.foldl_map, destinations, List.foldl_append, hconsole]
  cases hpath : c.path? with
  | none => exact ⟨rfl, fun path h => absurd (hpath.symm.trans h) nofun, fun _ => rfl⟩
  | some path =>
    obtain ⟨kept, hkept⟩ := h.opened path hpath
    obtain ⟨made, happend, hmade⟩ := hkept.update (· ++ line)
    have hfile : (c.handler (.file path)).write n shown = (shown.1, made) :=
      write_file hline happend
    rw [Option.map_some, Option.toList_some, List.foldl_cons, List.foldl_nil, hfile]
    refine ⟨rfl, fun other hother => ?_, fun h => absurd (hpath.symm.trans h) nofun⟩
    cases hpath.symm.trans hother
    exact ⟨happend, kept, hkept.read, hmade.read⟩

theorem InForce.noted (h : c.InForce s) (n : Note) : c.Noted n s (s.1.write s.2 n) := by
  have hhandlers : s.1.handlers = c.handlers := congrArg Arrangement.handlers h.arrangement
  rw [write, h.counts_eq, hhandlers]
  cases hcounts : c.counts n with
  | false => exact .ignored hcounts
  | true =>
    by_cases hnowhere : c.destinations = []
    · rw [handlers, hnowhere]
      exact .alone hcounts hnowhere
    · have hsome : c.handlers.isEmpty = false := by simpa [handlers] using hnowhere
      rw [hsome]
      cases hline : c.line? n with
      | none =>
        have hlost : c.handlers.foldl (Handler.write n) s = s := foldl_write_lost (fun h hmem => by
          obtain ⟨d, -, rfl⟩ := List.mem_map.mp hmem
          exact hline) s
        change c.Noted n s (c.handlers.foldl (Handler.write n) s)
        rw [hlost]
        exact .lost hcounts hnowhere hline
      | some line => exact .delivered hcounts hnowhere hline (h.delivered hline)

end Setup

/-! ## Runs -/

inductive Step where
  | setUp (c : Setup)
  | note (n : Note)

namespace Step

def next (s : Journal × FileTree) : Step → Journal × FileTree
  | setUp c => (c.attempt.outcome s).2
  | note n => s.1.write s.2 n

def returned? (s : Journal × FileTree) : Step → Option Setup
  | setUp c => if (c.attempt.outcome s).1.isOk then some c else none
  | note _ => none

end Step

def lastReturned (s : Journal × FileTree) : List Step → Option Setup
  | [] => none
  | step :: rest => (lastReturned (step.next s) rest).or (step.returned? s)

/-- The journal is as a call has left it, or as it was where there was none. -/
def AsLeft (start : Arrangement) (s : Journal × FileTree) : Option Setup → Prop
  | some c => c.InForce s
  | none => s.1.arrangement = start

variable {start : Arrangement} {last : Option Setup} {s s' : Journal × FileTree}

theorem AsLeft.keep (h : AsLeft start s last) (hsame : s'.1.arrangement = s.1.arrangement)
    (hgrows : s.2.Grows s'.2) : AsLeft start s' last := by
  cases last with
  | none => exact hsame.trans h
  | some c => exact Setup.InForce.keep h hsame hgrows

/-- A call that returns is in force from then on. All else leaves the last one in force. -/
theorem AsLeft.step (h : AsLeft start s last) (step : Step)
    (hlevels : ∀ c, step = .setUp c → c.HasLevels) :
    AsLeft start (step.next s) ((step.returned? s).or last) := by
  cases step with
  | note n =>
    obtain ⟨hsame, hgrows⟩ := write_keeps s.1 s.2 n
    exact h.keep hsame hgrows
  | setUp c =>
    obtain ⟨files', hgrows, ⟨e, hrefused, -⟩ | ⟨hopened, -, ⟨-, hreturned⟩ | ⟨hnone, -⟩⟩⟩ :=
      attempt_cases c s.1 s.2
    · simp only [Step.next, Step.returned?, hrefused]
      exact h.keep rfl hgrows
    · simp only [Step.next, Step.returned?, hreturned]
      exact ⟨rfl, hopened⟩
    · exact absurd (hlevels c rfl) hnone

theorem AsLeft.run {steps : List Step} (h : AsLeft start s last)
    (hlevels : ∀ c, .setUp c ∈ steps → c.HasLevels) :
    AsLeft start (steps.foldl Step.next s) ((lastReturned s steps).or last) := by
  -- For the rest of the steps, the first one counts as what was last before them.
  induction steps generalizing s last with
  | nil => exact h
  | cons step rest ih =>
    have hstep := h.step step fun c heq => hlevels c (heq ▸ List.mem_cons_self)
    have hrest := ih hstep fun c hmem => hlevels c (List.mem_cons_of_mem _ hmem)
    rw [lastReturned, Option.or_assoc]
    exact hrest

/-- A call that fails leaves the journal as it was, and one that returns leaves it as it asks for,
whatever was before. So after any calls and notes the last call that returned is in force, and a
note goes to each of its destinations once. It takes levels that can be read: where one cannot, the
call fails with the handlers in place. -/
theorem setUp_whole_or_refused (c : Setup) (j : Journal) (files : FileTree) (steps : List Step)
    (s : Journal × FileTree) :
    (c.HasLevels →
      (∀ e s, c.attempt.outcome (j, files) = (.error e, s) → s.1 = j ∧ c.Refused files e) ∧
        ∀ s, c.attempt.outcome (j, files) = (.ok (), s) →
          s.1 = c.arrange j ∧ ∀ e, ¬c.Refused files e) ∧
      (¬c.HasLevels →
        ∃ e s, c.attempt.outcome (j, files) = (.error e, s) ∧
          (c.Refused files e ∧ s.1 = j ∨
            (∀ e, ¬c.Refused files e) ∧ e = .badValue ∧ s.1 = c.arrangePart j)) ∧
      ((∀ c, .setUp c ∈ steps → c.HasLevels) →
        let s' := steps.foldl Step.next s
        match lastReturned s steps with
        | none => s'.1.arrangement = s.1.arrangement
        | some c => s'.1.arrangement = c.arrangement ∧ ∀ n, c.Noted n s' (s'.1.write s'.2 n)) := by
  refine ⟨fun hlevels => ?_, fun hlevels => ?_, fun hlevels => ?_⟩
  · obtain ⟨files', -, ⟨e, houtcome, hrefused⟩ | ⟨-, haccepted, ⟨-, houtcome⟩ | ⟨hnone, -⟩⟩⟩ :=
      attempt_cases c j files
    · rw [houtcome]
      refine ⟨fun e' s h => ?_, nofun⟩
      cases h
      exact ⟨rfl, hrefused⟩
    · rw [houtcome]
      refine ⟨nofun, fun s h => ?_⟩
      cases h
      exact ⟨rfl, haccepted⟩
    · exact absurd hlevels hnone
  · obtain ⟨files', -, ⟨e, houtcome, hrefused⟩ | ⟨-, haccepted, ⟨hsome, -⟩ | ⟨-, houtcome⟩⟩⟩ :=
      attempt_cases c j files
    · exact ⟨e, _, houtcome, .inl ⟨hrefused, rfl⟩⟩
    · exact absurd hsome hlevels
    · exact ⟨_, _, houtcome, .inr ⟨haccepted, rfl, rfl⟩⟩
  · have hstart : AsLeft s.1.arrangement s none := rfl
    have hleft : AsLeft s.1.arrangement (steps.foldl Step.next s) (lastReturned s steps) := by
      simpa using hstart.run hlevels
    cases hlast : lastReturned s steps with
    | none =>
      rw [hlast] at hleft
      exact hleft
    | some c =>
      rw [hlast] at hleft
      exact ⟨hleft.arrangement, hleft.noted⟩

def Example.both : Setup where
  settings := { logFormat := .text "%(message)s", logFile := .text "/notes.log" }

def Example.fieldless : Setup where
  settings := { logFormat := .text "message", logFile := .text "/others.log" }

/-- Notes are to go nowhere. The level is a list with a number of one digit too many. -/
def Example.endless : Setup where
  settings := {
    logConsole := .bool false
    logLevel := .list [.int (Nat.pow 10 Number.digitLimit)] }

def Example.hello : Note where
  name := "mxintent"
  level := 20
  text := "hello"

theorem setUp_whole_or_refused_hello :
    (∃ e s, Example.fieldless.attempt.outcome ({}, {}) = (.error e, s) ∧ s.1 = {} ∧
      Example.fieldless.Refused {} e) ∧
    (∃ e s, Example.endless.attempt.outcome ({}, {}) = (.error e, s) ∧
      (Example.endless.Refused {} e ∧ s.1 = {} ∨ (∀ e, ¬Example.endless.Refused {} e) ∧
        e = .badValue ∧ s.1 = Example.endless.arrangePart {})) ∧
    let steps := [.setUp Example.both, .setUp Example.fieldless]
    let s := steps.foldl Step.next ({}, {})
    lastReturned ({}, {}) steps = some Example.both ∧
      s.1.arrangement = Example.both.arrangement ∧
      Example.both.Noted Example.hello s (s.1.write s.2 Example.hello) ∧
      (s.1.write s.2 Example.hello).1.console = "hello\n" := by
  let steps : List Step := [.setUp Example.both, .setUp Example.fieldless]
  obtain ⟨hwhole, -, hrun⟩ := setUp_whole_or_refused Example.fieldless {} {} steps ({}, {})
  obtain ⟨-, hunread, -⟩ := setUp_whole_or_refused Example.endless {} {} steps ({}, {})
  have hboth : Example.both.HasLevels := ⟨rfl, rfl⟩
  have hfieldless : Example.fieldless.HasLevels := ⟨rfl, rfl⟩
  refine ⟨?_, hunread fun h => absurd h.level (by decide +kernel), ?_⟩
  · have hfails : (Example.fieldless.attempt.outcome ({}, {})).1.isOk = false := by decide +kernel
    rcases houtcome : Example.fieldless.attempt.outcome ({}, {}) with ⟨e | _, s⟩
    · exact ⟨e, s, rfl, (hwhole hfieldless).1 e s houtcome⟩
    · rw [houtcome] at hfails
      cases hfails
  · have hlast : lastReturned ({}, {}) steps = some Example.both := by
      have hreturns : (Example.both.attempt.outcome ({}, {})).1.isOk = true := by decide +kernel
      have hfails : (Example.fieldless.attempt.outcome
        (Example.both.attempt.outcome ({}, {})).2).1.isOk = false := by decide +kernel
      simp [steps, lastReturned, Step.next, Step.returned?, hreturns, hfails]
    have hleft := hrun (by
      simp only [steps, List.mem_cons, List.not_mem_nil, or_false, Step.setUp.injEq]
      rintro c (rfl | rfl)
      · exact hboth
      · exact hfieldless)
    rw [hlast] at hleft
    exact ⟨hlast, hleft.1, hleft.2 Example.hello, by decide +kernel⟩

/-- A level that cannot be read makes a call fail that has taken the handlers of the one before.
What is noted then is lost. -/
theorem endless_level_takes_handlers :
    let s := (Example.both.attempt.outcome ({}, {})).2
    let s' := (Example.endless.attempt.outcome s).2
    s.1.handlers.map (·.destination) = [.console, .file "/notes.log"] ∧
      (Example.endless.attempt.outcome s).1.isOk = false ∧ s'.1.handlers = [] ∧
      (s'.1.write s'.2 Example.hello).1.console = s'.1.console := by
  decide +kernel

end VirtualUsers.Journal
