import Mathlib.Data.List.Forall2
import VirtualUsers.Proofs.Contract
import VirtualUsers.Proofs.Payloads
import VirtualUsers.Proofs.Transactions
/-!
# Addresses of requests

Every argument in the path of a request has one segment of its own, from which it can be read again.
So the method and the address of a request tell which request it is and which arguments its path
has, whatever texts these are.
-/

namespace VirtualUsers

namespace Text

/-- The bytes of a text are those of its characters. -/
theorem utf8_eq (s : String) : utf8 s = s.toList.flatMap String.utf8EncodeChar := by
  rw [utf8, String.toUTF8_eq_toByteArray, ← String.utf8Encode_toList]
  simp [List.utf8Encode]

namespace Percent

/-! ## Segments -/

/-- A letter, a digit, or one of the marks that stand for themselves in a segment. -/
def IsUnreserved (c : Char) : Prop :=
  c.isAlphanum ∨ c ∈ ['-', '.', '_', '~']

/-- The characters are unreserved ones, and percent signs with two hexadecimal digits after each. -/
inductive Encoded : List Char → Prop
  | nil : Encoded []
  | unreserved {c : Char} {cs : List Char} (hc : IsUnreserved c) (hcs : Encoded cs) :
      Encoded (c :: cs)
  | escape {high low : Char} {cs : List Char} (hhigh : (hexValue? high).isSome)
      (hlow : (hexValue? low).isSome) (hcs : Encoded cs) : Encoded ('%' :: high :: low :: cs)

theorem hexValue?_hexDigit : ∀ n < 16, hexValue? (hexDigit n) = some n := by
  decide

theorem unreserved_of_byte : ∀ n < 256, isUnreserved (UInt8.ofNat n) = true → n < 0x80 ∧
    (Char.ofNat n).toNat = n ∧ Char.ofNat n ≠ '%' ∧ IsUnreserved (Char.ofNat n) := by
  unfold IsUnreserved
  decide +kernel

theorem byte_of_unreserved : ∀ n < 0x80, IsUnreserved (Char.ofNat n) →
    isUnreserved (UInt8.ofNat n) = true := by
  unfold IsUnreserved
  decide +kernel

theorem IsUnreserved.lt {c : Char} (h : IsUnreserved c) : c.toNat < 0x80 := by
  rcases h with h | h
  · -- The capital letters, the small ones and the digits.
    have hclasses : c.isAlphanum = (decide (65 ≤ c.val ∧ c.val ≤ 90) ||
        (decide (97 ≤ c.val) && decide (c.val ≤ 122)) ||
        (decide (48 ≤ c.val) && decide (c.val ≤ 57))) := rfl
    simp only [hclasses, Bool.or_eq_true, Bool.and_eq_true, decide_eq_true_eq,
      UInt32.le_iff_toNat_le] at h
    simp at h
    omega
  · simp only [List.mem_cons, List.not_mem_nil, or_false] at h
    rcases h with rfl | rfl | rfl | rfl <;> decide

theorem decode?_unreserved {c : Char} (hne : c ≠ '%') (hlt : c.toNat < 0x80)
    (h : isUnreserved (UInt8.ofNat c.toNat) = true) (cs : List Char) :
    decode? (c :: cs) = (decode? cs).map (UInt8.ofNat c.toNat :: ·) := by
  rw [decode?, if_pos (by simp [hlt, h])]
  exact fun _ _ _ hc => absurd hc hne

/-- A byte is read again, and then the rest. -/
theorem decode?_encodeByte (b : UInt8) (cs : List Char) :
    decode? (encodeByte b ++ cs) = (decode? cs).map (b :: ·) := by
  have hlt : b.toNat < 256 := b.toNat_lt
  rw [encodeByte]
  split
  · next h =>
    obtain ⟨hascii, hchar, hne, -⟩ := unreserved_of_byte b.toNat hlt (by rwa [UInt8.ofNat_toNat])
    rw [List.singleton_append, decode?_unreserved hne (by rwa [hchar])
      (by rwa [hchar, UInt8.ofNat_toNat]), hchar, UInt8.ofNat_toNat]
  · have hhigh := hexValue?_hexDigit (b.toNat / 16) (by omega)
    have hlow := hexValue?_hexDigit (b.toNat % 16) (by omega)
    have hvalue : 16 * (b.toNat / 16) + b.toNat % 16 = b.toNat := Nat.div_add_mod b.toNat 16
    simp only [List.cons_append, List.nil_append, decode?, hhigh, hlow, Option.bind_eq_bind,
      Option.bind_some, hvalue, UInt8.ofNat_toNat]
    cases decode? cs <;> rfl

/-- The bytes are read from their segment again. -/
theorem decode?_encode (bytes : List UInt8) : decode? (encode bytes) = some bytes := by
  induction bytes with
  | nil => rfl
  | cons b bytes ih =>
    rw [encode, List.flatMap_cons, decode?_encodeByte, ← encode, ih]
    rfl

theorem encoded_encode (bytes : List UInt8) : Encoded (encode bytes) := by
  induction bytes with
  | nil => exact .nil
  | cons b bytes ih =>
    have hlt : b.toNat < 256 := b.toNat_lt
    rw [encode, List.flatMap_cons, ← encode, encodeByte]
    split
    · next h =>
      obtain ⟨-, -, -, hchar⟩ := unreserved_of_byte b.toNat hlt (by rwa [UInt8.ofNat_toNat])
      exact .unreserved hchar ih
    · have hhigh := hexValue?_hexDigit (b.toNat / 16) (by omega)
      have hlow := hexValue?_hexDigit (b.toNat % 16) (by omega)
      exact .escape (by rw [hhigh]; rfl) (by rw [hlow]; rfl) ih

/-- Nothing that is encoded ends its segment. -/
theorem Encoded.slash_notMem {cs : List Char} (h : Encoded cs) : '/' ∉ cs := by
  induction h with
  | nil => exact List.not_mem_nil
  | unreserved hc _ ih =>
    intro hmem
    rcases List.mem_cons.mp hmem with rfl | hmem
    · revert hc
      unfold IsUnreserved
      decide
    · exact ih hmem
  | escape hhigh hlow _ ih =>
    intro hmem
    rcases List.mem_cons.mp hmem with heq | hmem
    · cases heq
    rcases List.mem_cons.mp hmem with rfl | hmem
    · cases hhigh
    rcases List.mem_cons.mp hmem with rfl | hmem
    · cases hlow
    · exact ih hmem

/-- A text of unreserved characters is its own segment. -/
theorem encode_utf8 {s : String} (h : ∀ c ∈ s.toList, IsUnreserved c) :
    encode (utf8 s) = s.toList := by
  have hchar (c : Char) (hc : IsUnreserved c) : encode (String.utf8EncodeChar c) = [c] := by
    have hvalue : c.val.toUInt8 = UInt8.ofNat c.toNat := rfl
    have hbyte : (UInt8.ofNat c.toNat).toNat = c.toNat :=
      UInt8.toNat_ofNat_of_lt' (Nat.lt_trans hc.lt (by decide))
    have hle : c.val ≤ 127 := UInt32.le_iff_toNat_le.mpr (Nat.le_of_lt_succ hc.lt)
    have hbool := byte_of_unreserved c.toNat hc.lt (by rwa [Char.ofNat_toNat])
    rw [String.utf8EncodeChar_eq_singleton (Char.utf8Size_eq_one_iff.mpr hle), hvalue, encode,
      List.flatMap_singleton, encodeByte, if_pos hbool, hbyte, Char.ofNat_toNat]
  rw [utf8_eq, encode]
  generalize s.toList = cs at h
  induction cs with
  | nil => rfl
  | cons c cs ih =>
    rw [List.flatMap_cons, List.flatMap_append, ih fun d hd => h d (List.mem_cons_of_mem c hd)]
    exact congrArg (· ++ cs) (hchar c (h c List.mem_cons_self))

end Percent

end Text

namespace Client

/-- A transaction needs no escapes. -/
theorem unreserved_of_mem_transaction (now : Int) (n : Nat) :
    ∀ c ∈ (transaction now n).toList, Text.Percent.IsUnreserved c := by
  have hdigits (k : Nat) : ∀ c ∈ (toString k).toList, Text.Percent.IsUnreserved c := by
    intro c hc
    rw [Nat.toString_eq_ofList_toDigits, String.toList_ofList] at hc
    have hdigit := Nat.isDigit_of_mem_toDigits (by decide) (by decide) hc
    exact .inl (by rw [Char.isAlphanum, hdigit, Bool.or_true])
  have hsigns : ∀ c ∈ ['m', 'x', 'i', '-', '.'], Text.Percent.IsUnreserved c := by
    simp only [Text.Percent.IsUnreserved, List.forall_mem_cons, List.not_mem_nil, false_imp_iff,
      implies_true]
    decide
  intro c hc
  rw [toList_transaction, List.mem_append, List.mem_append, List.mem_cons] at hc
  rcases hc with (hc | hc) | rfl | hc
  · exact hsigns c (List.mem_append_left ['-', '.'] hc)
  · rcases now with k | k
    · exact hdigits k c hc
    · rw [show toString (Int.negSucc k) = "-" ++ toString (k + 1) from rfl, String.toList_append,
        List.mem_append] at hc
      rcases hc with hc | hc
      · cases List.mem_singleton.mp hc
        exact hsigns '-' (by decide)
      · exact hdigits (k + 1) c hc
  · exact hsigns '.' (by decide)
  · exact hdigits n c hc

end Client

open Text

/-! ## What a path leads to -/

def MembershipAction.ofName? : String → Option MembershipAction
  | "invite" => some invite
  | "kick" => some kick
  | "ban" => some ban
  | "unban" => some unban
  | _ => none

theorem MembershipAction.ofName?_name (action : MembershipAction) :
    ofName? action.name = some action := by
  cases action <;> rfl

namespace Endpoint

def id? (segment : String) : Option Segment :=
  Percent.decode? segment.toList

/-- The endpoint that a homeserver finds behind a method and the segments of a path. -/
def route? (method : String) (segments : List String) : Option Endpoint :=
  match method, segments with
  | "POST", ["register"] => some register
  | "POST", ["join", room] => do return join (← id? room)
  | "POST", ["rooms", room, action] => do
    return membership (← MembershipAction.ofName? action) (← id? room)
  | "PUT", ["rooms", room, "send", type, transaction] => do
    return sendMessage (← id? room) (← id? type) transaction
  | "PUT", ["rooms", room, "state", type, key] => do
    return writeState (← id? room) (← id? type) (← id? key)
  | "PUT", ["rooms", room, "redact", event, transaction] => do
    return redact (← id? room) (← id? event) transaction
  | "PUT", ["rooms", room, "typing", user] => do return typing (← id? room) (← id? user)
  | "PUT", ["profile", user, "displayname"] => do return displayName (← id? user)
  | "PUT", ["profile", user, "avatar_url"] => do return avatarUrl (← id? user)
  | "GET", ["rooms", room, "state", type, key] => do
    return readState (← id? room) (← id? type) (← id? key)
  | "GET", ["rooms", room, "state"] => do return roomState (← id? room)
  | "GET", ["rooms", room, "joined_members"] => do return joinedMembers (← id? room)
  | "GET", ["rooms", room, "members"] => do return members (← id? room)
  | "GET", ["account", "whoami"] => some whoami
  | _, _ => none

theorem id?_id (bytes : Segment) : id? (String.ofList (segments.id bytes)) = some bytes := by
  rw [id?, String.toList_ofList]
  exact Percent.decode?_encode bytes

theorem ofList_fixed (s : String) : String.ofList (segments.fixed s) = s :=
  String.ofList_toList

/-- Every endpoint is found behind its own method and segments. -/
theorem route?_segments (e : Endpoint) :
    route? e.method (e.segments.map String.ofList) = some e := by
  cases e <;>
    simp [route?, method, segments, id?_id, ofList_fixed, MembershipAction.ofName?_name]

/-- No transaction of the endpoint reaches over the end of its segment. -/
def KeepsSegments (e : Endpoint) : Prop :=
  ∀ t, e.transaction? = some t → '/' ∉ t.toList

theorem slash_notMem_id (bytes : Segment) : '/' ∉ segments.id bytes :=
  (Percent.encoded_encode bytes).slash_notMem

theorem slash_notMem_segments {e : Endpoint} (h : e.KeepsSegments) :
    ∀ segment ∈ e.segments, '/' ∉ segment := by
  have hfixed (action : MembershipAction) : '/' ∉ segments.fixed action.name := by
    cases action <;> decide
  cases e with
  | membership action room =>
    simp only [segments, List.forall_mem_cons, slash_notMem_id, hfixed]
    decide
  | sendMessage | redact =>
    simp only [segments, List.forall_mem_cons, slash_notMem_id]
    exact ⟨by decide, not_false, by decide, not_false, h _ rfl, nofun⟩
  | _ =>
    simp only [segments, List.forall_mem_cons, slash_notMem_id]
    decide

/-- A path is cut at its slashes into nothing and its segments. -/
theorem splitOn_path {e : Endpoint} (h : e.KeepsSegments) :
    e.path.toList.splitOn '/' = [] :: e.segments := by
  have hjoin (segments : List (List Char)) :
      ['/'].intercalate ([] :: segments) = segments.flatMap ('/' :: ·) := by
    induction segments with
    | nil => rfl
    | cons segment segments ih =>
      rw [List.intercalate_cons_cons, List.flatMap_cons, ← ih]
      cases segments with
      | nil => simp [List.intercalate]
      | cons next segments => simp [List.intercalate_cons_cons]
  rw [path, String.toList_ofList, ← hjoin]
  refine List.splitOn_intercalate '/' ?_ (List.cons_ne_nil _ _)
  exact List.forall_mem_cons.mpr ⟨List.not_mem_nil, slash_notMem_segments h⟩

/-- Endpoints that share their method and their path are one. -/
theorem eq_of_path {e e' : Endpoint} (h : e.KeepsSegments) (h' : e'.KeepsSegments)
    (hmethod : e.method = e'.method) (hpath : e.path = e'.path) : e = e' := by
  have hsegments : e.segments = e'.segments := by
    have hsplit := splitOn_path h
    rw [hpath, splitOn_path h'] at hsplit
    exact (List.tail_eq_of_cons_eq hsplit).symm
  have hroute := route?_segments e
  rw [hmethod, hsegments, route?_segments] at hroute
  exact (Option.some.inj hroute).symm

end Endpoint

/-! ## The path of a request -/

/-- A part of a path: a name that the interface gives, or an argument of the request. -/
inductive PathPart where
  | name (s : String)
  | argument (s : String)

/-- The segment stands for the part. A name stands for itself. An argument is written with
unreserved characters and escapes, from which it can be read again. -/
def PathPart.Spells (segment : List Char) : PathPart → Prop
  | name s => segment = s.toList
  | argument s => Percent.Encoded segment ∧ (Percent.decode? segment).bind ofUtf8? = some s

/-- The address is one below the root of the interface, and its segments stand for the parts of its
path, one for one. -/
def IsAddress (homeserver : String) (parts : List PathPart) (url : String) : Prop :=
  ∃ path segments, url = homeserver ++ apiRoot ++ path ∧
    path.toList.splitOn '/' = [] :: segments ∧ List.Forall₂ PathPart.Spells segments parts

theorem PathPart.spells_name (s : String) :
    (PathPart.name s).Spells (Endpoint.segments.fixed s) := rfl

theorem PathPart.spells_argument (s : String) :
    (PathPart.argument s).Spells (Endpoint.segments.id (utf8 s)) := by
  refine ⟨Percent.encoded_encode _, ?_⟩
  rw [Endpoint.segments.id, Percent.decode?_encode]
  exact ofUtf8?_utf8 s

/-- A text of unreserved characters is an argument as it is. -/
theorem PathPart.spells_unreserved {s : String} (h : ∀ c ∈ s.toList, Percent.IsUnreserved c) :
    (PathPart.argument s).Spells (Endpoint.segments.fixed s) := by
  have hspells := spells_argument s
  rwa [Endpoint.segments.id, Percent.encode_utf8 h] at hspells

/-- The name of the request that comes to an endpoint, and the parts of its path. -/
def Endpoint.target : Endpoint → String × List PathPart
  | register => ("register", [.name "register"])
  | join room => ("join_room", [.name "join", id room])
  | membership action room =>
    (action.name ++ "_user", [.name "rooms", id room, .name action.name])
  | sendMessage room type transaction =>
    ("send_message_event",
      [.name "rooms", id room, .name "send", id type, .argument transaction])
  | writeState room type key =>
    ("send_state_event", [.name "rooms", id room, .name "state", id type, id key])
  | readState room type key =>
    ("state_event", [.name "rooms", id room, .name "state", id type, id key])
  | roomState room => ("state", [.name "rooms", id room, .name "state"])
  | joinedMembers room => ("joined_members", [.name "rooms", id room, .name "joined_members"])
  | members room => ("members", [.name "rooms", id room, .name "members"])
  | redact room event transaction =>
    ("redact_event", [.name "rooms", id room, .name "redact", id event, .argument transaction])
  | typing room user => ("set_typing", [.name "rooms", id room, .name "typing", id user])
  | displayName user => ("set_display_name", [.name "profile", id user, .name "displayname"])
  | avatarUrl user => ("set_avatar_url", [.name "profile", id user, .name "avatar_url"])
  | whoami => ("whoami", [.name "account", .name "whoami"])
where
  id (bytes : Segment) : PathPart := .argument ((ofUtf8? bytes).getD "")

namespace Inquiry

/-- The endpoint that the request comes to, for a client of the user with the transaction. -/
def endpoint (user transaction : String) : Inquiry → Endpoint
  | register .. => .register
  | join room => .join (utf8 room)
  | change action room .. => .membership action (utf8 room)
  | sendMessage room type .. => .sendMessage (utf8 room) (utf8 type) transaction
  | writeState room type key .. => .writeState (utf8 room) (utf8 type) (utf8 key)
  | readState room type key => .readState (utf8 room) (utf8 type) (utf8 key)
  | roomState room => .roomState (utf8 room)
  | joinedMembers room => .joinedMembers (utf8 room)
  | members room .. => .members (utf8 room)
  | redact room event _ => .redact (utf8 room) (utf8 event) transaction
  | typing room .. => .typing (utf8 room) (utf8 user)
  | displayName _ => .displayName (utf8 user)
  | avatarUrl _ => .avatarUrl (utf8 user)
  | whoami => .whoami

/-- The parts of the path of the request, for a client of the user with the transaction. -/
def parts (user transaction : String) : Inquiry → List PathPart
  | register .. => [.name "register"]
  | join room => [.name "join", .argument room]
  | change action room .. => [.name "rooms", .argument room, .name action.name]
  | sendMessage room type .. =>
    [.name "rooms", .argument room, .name "send", .argument type, .argument transaction]
  | writeState room type key .. | readState room type key =>
    [.name "rooms", .argument room, .name "state", .argument type, .argument key]
  | roomState room => [.name "rooms", .argument room, .name "state"]
  | joinedMembers room => [.name "rooms", .argument room, .name "joined_members"]
  | members room .. => [.name "rooms", .argument room, .name "members"]
  | redact room event _ =>
    [.name "rooms", .argument room, .name "redact", .argument event, .argument transaction]
  | typing room .. => [.name "rooms", .argument room, .name "typing", .argument user]
  | displayName _ => [.name "profile", .argument user, .name "displayname"]
  | avatarUrl _ => [.name "profile", .argument user, .name "avatar_url"]
  | whoami => [.name "account", .name "whoami"]

variable {user transaction : String}

theorem target_endpoint (q : Inquiry) :
    (q.endpoint user transaction).target = (q.name, q.parts user transaction) := by
  have hid (s : String) : Endpoint.target.id (utf8 s) = .argument s := by
    rw [Endpoint.target.id, ofUtf8?_utf8]
    rfl
  cases q with
  | change action =>
    cases action <;> simp [endpoint, Endpoint.target, parts, name, hid, MembershipAction.name]
  | _ => simp [endpoint, Endpoint.target, parts, name, hid]

theorem spells_parts (q : Inquiry) (h : ∀ c ∈ transaction.toList, Percent.IsUnreserved c) :
    List.Forall₂ PathPart.Spells (q.endpoint user transaction).segments
      (q.parts user transaction) := by
  cases q <;>
    simp only [endpoint, parts, Endpoint.segments, List.forall₂_cons, PathPart.spells_name,
      PathPart.spells_argument, PathPart.spells_unreserved h, List.forall₂_nil_left_iff, true_and]

theorem keepsSegments_endpoint (q : Inquiry) (h : '/' ∉ transaction.toList) :
    (q.endpoint user transaction).KeepsSegments := by
  intro t ht
  cases q <;> cases ht <;> exact h

end Inquiry

/-! ## What is sent -/

def Exchange.IsTo (c : Client) (endpoint : Endpoint) (x : Exchange) : Prop :=
  ∃ body params asUser, x.IsFrom c endpoint body params asUser

theorem Exchange.IsFrom.isTo {c : Client} {endpoint : Endpoint} {body : Value}
    {params : List (String × Value)} {asUser : Bool} {x : Exchange}
    (h : x.IsFrom c endpoint body params asUser) : x.IsTo c endpoint :=
  ⟨body, params, asUser, h⟩

namespace Bridge

variable {b : Bridge} {c : ClientId}

def upcomingTransaction (b : Bridge) (c : ClientId) : String :=
  Client.transaction b.now ((b.clientAt c).issued + 1)

theorem outcome_upcomingTransaction (c : ClientId) (b : Bridge) : ∃ b',
    (nextTransaction c).outcome b = (.ok (b.upcomingTransaction c), b') ∧ Untouched b b' := by
  obtain ⟨t, b', hnext, hb'⟩ := outcome_nextTransaction c b
  have hcounted : (nextTransaction c).outcome b = (.ok (b.upcomingTransaction c), b.counted c) :=
    rfl
  cases hcounted.symm.trans hnext
  exact ⟨_, hcounted, hb'⟩

/-- What was read is given another form. -/
theorem Asks.giving {α β : Type} {sends : Exchange → Prop} {read : Value → Except Failure α}
    {ask : Act α} (h : Asks b sends read ask) (g : α → β) :
    Asks b sends (fun data => (read data).map g) (ask >>= fun a => pure (g a)) := by
  rcases h with ⟨e, b', hout, he, hb'⟩ | ⟨x, b', hout, hx, hb'⟩
  · refine Or.inl ⟨e, b', ?_, he, hb'⟩
    rw [Attempt.outcome_bind, hout, Attempt.follow_error]
  · exact Or.inr ⟨x, b', outcome_giving hout g, hx, hb'⟩

end Bridge

namespace Inquiry

open Bridge

variable {b : Bridge} {c : ClientId} {user : String}

/-- If a request is sent at all then to its endpoint. -/
theorem asks_act (q : Inquiry) (hu : (b.clientAt c).user = .text user) :
    Asks b (·.IsTo (b.clientAt c) (q.endpoint user (b.upcomingTransaction c))) q.read
      (q.act c) := by
  have hsegment {u : Segment} (h : (b.clientAt c).user.segment = .ok u) : utf8 user = u := by
    rw [hu] at h
    exact Except.ok.inj h
  cases q with
  | register localpart inhibit =>
    exact (asks_sendRegister b c _ _).imp fun _ hx => Exchange.IsFrom.isTo hx
  | whoami => exact (asks_readWhoami b c).imp fun _ hx => Exchange.IsFrom.isTo hx
  | join room =>
    exact ((asks_sendJoin b c _).imp fun _ ⟨_, hr, hx⟩ => by cases hr; exact hx.isTo).giving _
  | change action room other reason =>
    exact ((asks_sendMembership b c action _ _ _).imp fun _ ⟨_, hr, hx⟩ => by
      cases hr; exact hx.isTo).giving _
  | sendMessage room type content timestamp =>
    refine Asks.giving (.check (staysLocal_timeParams _) fun params _ =>
      .check (Value.staysLocal_segment _) fun r hr =>
      .check (Value.staysLocal_segment _) fun t ht => ?_) _
    obtain ⟨b₁, hnext, hb₁⟩ := outcome_upcomingTransaction c b
    refine .after hnext hb₁ (.check (Content.staysLocal_ofRecord content) fun body _ => ?_)
    cases hr
    cases ht
    exact ((asks_send b₁ c _ _ _ _).reading eventId).imp fun x hx => (hb₁.isFrom.mp hx).isTo
  | writeState room type key content timestamp =>
    exact ((asks_writeState b c _ _ _ _ _).imp fun x ⟨_, r, t, k, _, _, hr, ht, hk, _, hx⟩ => by
      cases hr; cases ht; cases hk; exact hx.isTo).giving _
  | readState room type key =>
    exact (asks_readState b c _ _ _).imp fun x ⟨r, t, k, hr, ht, hk, hx⟩ => by
      cases hr; cases ht; cases hk; exact hx.isTo
  | roomState room =>
    exact ((asks_readRoomState b c _).imp fun _ ⟨_, hr, hx⟩ => by
      cases hr; exact hx.isTo).giving _
  | joinedMembers room =>
    exact ((asks_readJoinedMembers b c _).imp fun _ ⟨_, hr, hx⟩ => by
      cases hr; exact hx.isTo).giving _
  | members room membership notMembership =>
    exact ((asks_readMembers b c _ _ _).imp fun _ ⟨_, _, hr, hx⟩ => by
      cases hr; exact hx.isTo).giving _
  | redact room event reason =>
    refine Asks.giving (.check (Value.staysLocal_segment _) fun r hr =>
      .check (Value.staysLocal_segment _) fun e he => ?_) _
    obtain ⟨b₁, hnext, hb₁⟩ := outcome_upcomingTransaction c b
    cases hr
    cases he
    exact .after hnext hb₁ (((asks_send b₁ c _ _ _ _).reading eventId).imp fun x hx =>
      (hb₁.isFrom.mp hx).isTo)
  | typing room isTyping length =>
    exact ((asks_sendTyping b c _ _ _).imp fun _ ⟨_, _, _, hr, hu, hx⟩ => by
      cases hr; cases hsegment hu; exact hx.isTo).giving _
  | displayName name =>
    exact ((asks_sendDisplayName b c _).imp fun _ ⟨_, hu, hx⟩ => by
      cases hsegment hu; exact hx.isTo).giving _
  | avatarUrl url =>
    exact ((asks_sendAvatarUrl b c _).imp fun _ ⟨_, hu, hx⟩ => by
      cases hsegment hu; exact hx.isTo).giving _

def Sends (b : Bridge) (c : ClientId) (q : Inquiry) (x : Exchange) : Prop :=
  x ∈ newTraffic b ((Call.request c q.name q.arguments).outcome b).2

theorem Sends.isTo {q : Inquiry} {x : Exchange} (h : Sends b c q x)
    (hu : (b.clientAt c).user = .text user) :
    x.IsTo (b.clientAt c) (q.endpoint user (b.upcomingTransaction c)) := by
  rw [Sends, outcome_request] at h
  rcases asks_act (c := c) q hu with ⟨e, b', hout, -, hb'⟩ | ⟨y, b', hout, hy, hb'⟩
  · rw [hout, newTraffic, hb'.traffic, List.drop_length] at h
    exact absurd h List.not_mem_nil
  · rw [hout, newTraffic, hb'.traffic, List.drop_left] at h
    cases List.mem_singleton.mp h
    exact hy

/-- The segments of the address of a request stand for the names and the arguments of its path, one
for one. Two requests to one homeserver that share their method and their address are the same
request, with the same arguments in the path. -/
theorem address_unambiguous {b b' : Bridge} {c c' : ClientId} {u u' : String} (q q' : Inquiry)
    {x x' : Exchange} (hu : (b.clientAt c).user = .text u) (hu' : (b'.clientAt c').user = .text u')
    (hserver : (b.clientAt c).homeserver = (b'.clientAt c').homeserver)
    (hx : q.Sends b c x) (hx' : q'.Sends b' c' x') :
    IsAddress (b.clientAt c).homeserver (q.parts u (b.upcomingTransaction c)) x.request.url ∧
      (x.request.endpoint.method = x'.request.endpoint.method → x.request.url = x'.request.url →
        q.name = q'.name ∧
          q.parts u (b.upcomingTransaction c) = q'.parts u' (b'.upcomingTransaction c')) := by
  obtain ⟨body, params, asUser, hfrom⟩ := hx.isTo hu
  obtain ⟨body', params', asUser', hfrom'⟩ := hx'.isTo hu'
  have hkeeps : (q.endpoint u (b.upcomingTransaction c)).KeepsSegments :=
    q.keepsSegments_endpoint (Client.slash_notMem b.now _)
  have hkeeps' : (q'.endpoint u' (b'.upcomingTransaction c')).KeepsSegments :=
    q'.keepsSegments_endpoint (Client.slash_notMem b'.now _)
  constructor
  · refine ⟨_, _, congrArg Request.url hfrom.2, Endpoint.splitOn_path hkeeps, ?_⟩
    exact q.spells_parts (Client.unreserved_of_mem_transaction b.now _)
  · intro hmethod hurl
    rw [hfrom.endpoint_eq, hfrom'.endpoint_eq] at hmethod
    rw [hfrom.2, hfrom'.2] at hurl
    have hpath : (q.endpoint u (b.upcomingTransaction c)).path =
        (q'.endpoint u' (b'.upcomingTransaction c')).path := by
      change _ ++ apiRoot ++ _ = _ ++ apiRoot ++ _ at hurl
      rw [hserver] at hurl
      exact String.append_right_inj _ |>.mp hurl
    have hendpoint := Endpoint.eq_of_path hkeeps hkeeps' hmethod hpath
    have htarget := congrArg Endpoint.target hendpoint
    rw [target_endpoint, target_endpoint] at htarget
    exact Prod.mk.inj htarget

/-- Someone is kicked out of a room whose id has characters that an address is cut at. -/
def Example.kick (user : String) (reason : Option String) : Inquiry :=
  .change .kick "!a/b?c%#é:hs" user reason

theorem address_unambiguous_kicks :
    let b := Example.asked .empty
    let address := "/_matrix/client/v3/rooms/%21a%2Fb%3Fc%25%23%C3%A9%3Ahs/kick"
    let bob := Example.kick "@bob:hs" none
    let eve := Example.kick "@eve:hs" (some "spam")
    (∃ x y, (bob.Sends b 0 x ∧ x.request.url = address) ∧ eve.Sends b 0 y ∧
      y.request.url = address) ∧
    IsAddress "" [.name "rooms", .argument "!a/b?c%#é:hs", .name "kick"] address ∧
    bob.name = eve.name := by
  intro b address bob eve
  obtain ⟨x, hx, hurl, hmethod⟩ : ∃ x, bob.Sends b 0 x ∧ x.request.url = address ∧
      x.request.endpoint.method = "POST" := ⟨_, List.mem_singleton_self _, rfl, rfl⟩
  obtain ⟨y, hy, hurl', hmethod'⟩ : ∃ y, eve.Sends b 0 y ∧ y.request.url = address ∧
      y.request.endpoint.method = "POST" := ⟨_, List.mem_singleton_self _, rfl, rfl⟩
  have huser : (b.clientAt 0).user = .text "@alice:hs" := rfl
  obtain ⟨haddress, hsame⟩ := address_unambiguous bob eve huser huser rfl hx hy
  refine ⟨⟨x, y, ⟨hx, hurl⟩, hy, hurl'⟩, ?_, ?_⟩
  · rw [← hurl]
    exact haddress
  · exact (hsame (hmethod.trans hmethod'.symm) (hurl.trans hurl'.symm)).1

end Inquiry

end VirtualUsers
