import Mathlib.Data.List.Basic
import VirtualUsers.Proofs.Carriage
import VirtualUsers.Proofs.Runs
/-!
# Transactions

A homeserver takes two messages or redactions for one if they come to the same address from the
same user. The address ends with the transaction, the transaction with the count of its client, and
a user has one client. So no two of them are ever taken for one, whatever the clock says.
-/

namespace VirtualUsers

/-! ## What is read off the end of a text -/

theorem eq_of_append_cons {t u a b : List α} {mark : α} (ht : mark ∉ t) (hu : mark ∉ u)
    (h : a ++ mark :: t = b ++ mark :: u) : t = u := by
  rcases List.append_eq_append_iff.mp h with ⟨c, -, hc⟩ | ⟨c, -, hc⟩
  · cases c with
    | nil => exact List.tail_eq_of_cons_eq hc
    | cons d c =>
      have htail : t = c ++ mark :: u := List.tail_eq_of_cons_eq hc
      exact absurd (htail ▸ List.mem_append_right c List.mem_cons_self) ht
  · cases c with
    | nil => exact (List.tail_eq_of_cons_eq hc).symm
    | cons d c =>
      have htail : u = c ++ mark :: t := List.tail_eq_of_cons_eq hc
      exact absurd (htail ▸ List.mem_append_right c List.mem_cons_self) hu

namespace Client

def transaction (now : Int) (n : Nat) : String :=
  "mxi" ++ toString now ++ "." ++ toString n

/-- A count is written with digits only. -/
theorem mark_notMem {c : Char} (hc : c.isDigit = false) (n : Nat) : c ∉ (toString n).toList := by
  intro h
  rw [Nat.toString_eq_ofList_toDigits, String.toList_ofList] at h
  rw [Nat.isDigit_of_mem_toDigits (by decide) (by decide) h] at hc
  cases hc

theorem toList_transaction (now : Int) (n : Nat) :
    (transaction now n).toList =
      "mxi".toList ++ (toString now).toList ++ '.' :: (toString n).toList := by
  simp [transaction]

/-- A transaction tells its count. -/
theorem count_of_transaction {now now' : Int} {n m : Nat}
    (h : transaction now n = transaction now' m) : n = m := by
  have hlist := congrArg String.toList h
  rw [toList_transaction, toList_transaction] at hlist
  have hcount := eq_of_append_cons (mark_notMem rfl n) (mark_notMem rfl m) hlist
  rw [Nat.toString_eq_ofList_toDigits, Nat.toString_eq_ofList_toDigits, String.toList_ofList,
    String.toList_ofList] at hcount
  have hvalue := congrArg (fun digits => Nat.ofDigitChars 10 digits 0) hcount
  simpa using hvalue

/-- A transaction is a segment of a path as it is. -/
theorem slash_notMem (now : Int) (n : Nat) : '/' ∉ (transaction now n).toList := by
  rw [toList_transaction, List.mem_append, List.mem_append, List.mem_cons]
  rintro ((h | h) | h | h)
  · revert h
    decide
  · rcases now with k | k
    · exact mark_notMem rfl k h
    · rw [show toString (Int.negSucc k) = "-" ++ toString (k + 1) from rfl, String.toList_append,
        List.mem_append] at h
      rcases h with h | h
      · revert h
        decide
      · exact mark_notMem rfl (k + 1) h
  · revert h
    decide
  · exact mark_notMem rfl n h

end Client

/-- A path with a transaction ends with it. -/
theorem Endpoint.path_transaction {e : Endpoint} {t : String} (h : e.transaction? = some t) :
    ∃ start, e.path.toList = start ++ '/' :: t.toList := by
  have hlast (start : List (List Char)) : ∃ cs,
      (start ++ [t.toList]).flatMap ('/' :: ·) = cs ++ '/' :: t.toList :=
    ⟨start.flatMap ('/' :: ·), by simp⟩
  rw [path, String.toList_ofList]
  cases e with
  | sendMessage room type _ | redact room event _ =>
    cases h
    exact hlast [_, _, _, _]
  | _ => cases h

namespace Exchange

def transaction? (x : Exchange) : Option String :=
  x.request.endpoint.transaction?

def userId? (x : Exchange) : Option Value :=
  Table.get? "user_id" x.request.params

/-- The request is made by a client with a transaction of the given count. -/
structure IsNumbered (x : Exchange) (client : Client) (n : Nat) : Prop where
  transaction : ∃ now, x.transaction? = some (Client.transaction now n)
  userId : x.userId? = some client.user
  url : x.request.url = client.homeserver ++ apiRoot ++ x.request.endpoint.path

/-- The address and the user by which a homeserver knows a request with a transaction. -/
def place? (x : Exchange) : Option (String × Option Value) :=
  x.transaction?.map fun _ => (x.request.url, x.userId?)

def issue? (x : Exchange) : Option (String × Option Value) :=
  x.transaction?.map fun transaction => (transaction, x.userId?)

/-- If both requests have a transaction then not the same one for the same user. -/
def Apart (x y : Exchange) : Prop :=
  ∀ issue, x.issue? = some issue → y.issue? ≠ some issue

end Exchange

namespace Bridge

open Attempt (ofResult)

/-! ## The numbers of a service -/

/-- Every user has one client, and what a client has sent has a number that it has used up. -/
structure Numbered (b : Bridge) : Prop where
  keyed : ∀ (c : ClientId) (client : Client), b.clients[c]? = some client →
    ∃ key, client.user.toKey = .ok key ∧ Table.get? key b.clientOf = some c
  known : ∀ key c, Table.get? key b.clientOf = some c → c < b.clients.length
  intents : ∀ name i, Table.get? name b.intents = some i → i.client < b.clients.length
  issued : ∀ x ∈ b.traffic, x.transaction?.isSome → ∃ (c : ClientId) (client : Client) (n : Nat),
    b.clients[c]? = some client ∧ n ≤ client.issued ∧ x.IsNumbered client n
  apart : b.traffic.Pairwise Exchange.Apart

structure NumberedAt (c : ClientId) (b : Bridge) : Prop extends Numbered b where
  present : c < b.clients.length

variable {b b' : Bridge} {c d : ClientId}

/-- Clients with one user are one client. -/
theorem Numbered.client_unique (h : Numbered b) {client client' : Client}
    (hc : b.clients[c]? = some client) (hd : b.clients[d]? = some client')
    (huser : client.user = client'.user) : c = d := by
  obtain ⟨key, hkey, hget⟩ := h.keyed c client hc
  obtain ⟨key', hkey', hget'⟩ := h.keyed d client' hd
  rw [huser, hkey'] at hkey
  cases hkey
  exact Option.some.inj (hget.symm.trans hget')

/-- The next count of a client is new for its user. -/
theorem Numbered.unused (h : Numbered b) {client : Client} (hc : b.clients[c]? = some client)
    {now : Int} {x : Exchange} (hx : x ∈ b.traffic) :
    x.issue? ≠ some (Client.transaction now (client.issued + 1), some client.user) := by
  intro hissue
  obtain ⟨t, ht, hpair⟩ := Option.map_eq_some_iff.mp hissue
  obtain ⟨d, client', n, hd, hn, ⟨now', htransaction⟩, huser, -⟩ := h.issued x hx (by rw [ht]; rfl)
  rw [huser, Prod.mk.injEq, Option.some.injEq] at hpair
  cases h.client_unique hd hc hpair.2
  cases hc.symm.trans hd
  have hsame := Option.some.inj (htransaction.symm.trans ht)
  have hcount := Client.count_of_transaction (hsame.trans hpair.1)
  omega

/-- A service with the same clients and the same traffic is numbered alike. -/
theorem Numbered.same (h : Numbered b) (hclients : b'.clients = b.clients)
    (hof : b'.clientOf = b.clientOf) (hintents : b'.intents = b.intents)
    (htraffic : b'.traffic = b.traffic) : Numbered b' := by
  constructor
  · rw [hclients, hof]
    exact h.keyed
  · rw [hclients, hof]
    exact h.known
  · rw [hclients, hintents]
    exact h.intents
  · rw [hclients, htraffic]
    exact h.issued
  · rw [htraffic]
    exact h.apart

theorem send_clients (c : ClientId) (endpoint : Endpoint) (body : Value)
    (params : List (String × Value)) (asUser : Bool) (b : Bridge) :
    ((send c endpoint body params asUser).outcome b).2.clients = b.clients := by
  simp only [send, exchange, Attempt.outcome_bind, outcome_client, Attempt.follow_ok, outcome_debug,
    Attempt.outcome_get, Attempt.outcome_set, Attempt.outcome_pure, Attempt.outcome_ofResult]
  rfl

/-- A request keeps a service numbered if it has no transaction, or a number that its client has
used up for it. -/
theorem Numbered.send (h : Numbered b) {endpoint : Endpoint} {body : Value}
    {params : List (String × Value)} {asUser : Bool}
    (hnumber : ∀ x : Exchange, x.IsFrom (b.clientAt c) endpoint body params asUser →
      x.transaction?.isSome → (∀ y ∈ b.traffic, y.issue? ≠ x.issue?) ∧
        ∃ (d : ClientId) (client : Client) (n : Nat),
          b.clients[d]? = some client ∧ n ≤ client.issued ∧ x.IsNumbered client n) :
    Numbered ((send c endpoint body params asUser).outcome b).2 := by
  have hclients := send_clients c endpoint body params asUser b
  obtain ⟨x, b', hout, hfrom, hheard⟩ := outcome_send c endpoint body params asUser b
  rw [hout] at hclients ⊢
  have hx := hnumber x hfrom
  constructor
  · rw [hclients, hheard.clientOf]
    exact h.keyed
  · rw [hclients, hheard.clientOf]
    exact h.known
  · rw [hclients, hheard.intents]
    exact h.intents
  · intro y hy hsome
    rw [hclients]
    rw [hheard.traffic, List.mem_append, List.mem_singleton] at hy
    rcases hy with hy | rfl
    · exact h.issued y hy hsome
    · exact (hx hsome).2
  · rw [hheard.traffic, List.pairwise_append]
    refine ⟨h.apart, List.pairwise_singleton _ _, fun y hy z hz issue hissue hissue' => ?_⟩
    cases List.mem_singleton.mp hz
    have hsome : x.transaction?.isSome := by
      rw [← Option.isSome_map, ← Exchange.issue?, hissue']
      rfl
    exact (hx hsome).1 y hy (hissue.trans hissue'.symm)

/-! ## A transaction is issued -/

/-- A transaction was issued to a client, and no request has used it. -/
structure Issued (c : ClientId) (transaction : String) (b : Bridge) : Prop extends
    NumberedAt c b where
  number : ∃ now n, transaction = Client.transaction now n ∧ n ≤ (b.clientAt c).issued
  unused : ∀ x ∈ b.traffic, x.issue? ≠ some (transaction, some (b.clientAt c).user)

theorem clientAt_eq (h : c < b.clients.length) : b.clients[c]? = some (b.clientAt c) := by
  rw [clientAt, List.getElem?_eq_getElem h]
  rfl

def counted (c : ClientId) (b : Bridge) : Bridge :=
  let client := b.clientAt c
  { b with clients := b.clients.set c { client with issued := client.issued + 1 } }

theorem clients_counted (hc : c < b.clients.length) (d : ClientId) :
    (b.counted c).clients[d]? =
      if c = d then some { b.clientAt c with issued := (b.clientAt c).issued + 1 }
      else b.clients[d]? := by
  rw [counted, List.getElem?_set]
  simp only [hc, if_true]

theorem clientAt_counted (hc : c < b.clients.length) : (b.counted c).clientAt c =
    { b.clientAt c with issued := (b.clientAt c).issued + 1 } := by
  rw [clientAt, clients_counted hc, if_pos rfl]
  rfl

/-- A client may use up a number and not send anything. -/
theorem NumberedAt.counted (h : NumberedAt c b) : NumberedAt c (b.counted c) := by
  have hc := clientAt_eq h.present
  have hlength : (b.counted c).clients.length = b.clients.length := List.length_set
  refine ⟨⟨fun d client hd => ?_, ?_, ?_, fun x hx hsome => ?_, h.apart⟩, ?_⟩
  · rw [clients_counted h.present] at hd
    split at hd
    · next heq =>
      cases hd
      cases heq
      exact h.keyed c (b.clientAt c) hc
    · exact h.keyed d client hd
  · rw [hlength]
    exact h.known
  · rw [hlength]
    exact h.intents
  · obtain ⟨d, client, n, hd, hn, hnumbered⟩ := h.issued x hx hsome
    by_cases heq : c = d
    · cases heq
      cases hc.symm.trans hd
      exact ⟨c, _, n, (clients_counted h.present c).trans (if_pos rfl), Nat.le_succ_of_le hn,
        hnumbered.1, hnumbered.2, hnumbered.3⟩
    · exact ⟨d, client, n, (clients_counted h.present d).trans ((if_neg heq).trans hd), hn,
        hnumbered⟩
  · rw [hlength]
    exact h.present

theorem issued_nextTransaction (h : NumberedAt c b) :
    ∃ transaction b', (nextTransaction c).outcome b = (.ok transaction, b') ∧
      Issued c transaction b' := by
  refine ⟨_, b.counted c, rfl, h.counted, ?_, ?_⟩
  · rw [clientAt_counted h.present]
    exact ⟨b.now, _, rfl, Nat.le_refl _⟩
  · rw [clientAt_counted h.present]
    exact fun x hx => h.unused (clientAt_eq h.present) hx

theorem userId_request {params : List (String × Value)}
    (hparams : Table.get? "user_id" params = none) (user : Value) :
    Table.get? "user_id" (params ++ [("user_id", user)]) = some user := by
  induction params with
  | nil => rfl
  | cons p params ih =>
    rw [Table.get?] at hparams
    rw [List.cons_append, Table.get?]
    split at hparams
    · cases hparams
    · next hne =>
      rw [if_neg hne]
      exact ih hparams

/-- A request may use the transaction that was issued for it. -/
theorem Issued.send {transaction : String} (h : Issued c transaction b) {endpoint : Endpoint}
    (hendpoint : endpoint.transaction? = some transaction) {params : List (String × Value)}
    (hparams : Table.get? "user_id" params = none) (body : Value) :
    NumberedAt c ((send c endpoint body params true).outcome b).2 := by
  refine ⟨Numbered.send h.toNumbered fun x hfrom _ => ?_, ?_⟩
  · have htransaction : x.transaction? = some transaction := by
      rw [Exchange.transaction?, hfrom.endpoint_eq, hendpoint]
    have huser : x.userId? = some (b.clientAt c).user := by
      rw [Exchange.userId?, hfrom.2]
      exact userId_request hparams _
    obtain ⟨now, n, hnow, hn⟩ := h.number
    have hissue : x.issue? = some (transaction, some (b.clientAt c).user) := by
      rw [Exchange.issue?, htransaction, huser]
      rfl
    refine ⟨fun y hy => ?_, c, b.clientAt c, n, clientAt_eq h.present, hn,
      ⟨now, htransaction.trans (congrArg some hnow)⟩, huser, ?_⟩
    · rw [hissue]
      exact h.unused y hy
    · rw [hfrom.endpoint_eq, hfrom.2]
      rfl
  · rw [send_clients]
    exact h.present

end Bridge

end VirtualUsers
