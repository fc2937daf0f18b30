import RobotOs.Lib.Run
import RobotOs.Lib.Framing

/-!
# The DNS resolver

`dns.rs` of the net crate.  Any number of tasks resolve names at the same time.
A call of `resolve` takes several steps: it looks into the cache, prepares a
query, arms the one shared record `DNS_QUERY`, polls that record, disarms it and
caches the address.  Datagrams arrive between any two of these steps.  The
transaction ids, the datagrams and the clock are inputs.

Three fields are not in the source: the datagrams received and the addresses
returned so far, and the server of a cached address.  No step reads them.
-/

namespace RobotOs.Net.Dns

open RobotOs.Lib.Framing (Bytes Ip ofBE beBytes)

def DNS_SERVER_PORT : Nat := 53
def DNS_MAX_RESPONSE : Nat := 512
def DNS_TYPE_A : Nat := 1
def DNS_MAX_NAME_LEN : Nat := 63
def DNS_HDR_SIZE : Nat := 12
def DNS_CACHE_SIZE : Nat := 4
def DNS_QUESTION_MAX : Nat := 80
def DNS_CACHE_TTL_TICKS : Nat := 5 * 60 * 10000000
def DNS_TIMEOUT_TICKS : Nat := 2 * 10000000

/-- A UDP datagram for the client port. -/
structure Datagram where
  srcIp : Ip
  srcPort : Nat
  data : Bytes
  deriving DecidableEq

/-- The big-endian word of two bytes at `i`. -/
def be16 (data : Bytes) (i : Nat) : Nat := ofBE [data.getD i 0, data.getD (i + 1) 0]

/-! ## Queries -/

/-- The labels of `build_query`, from position `pos` on. -/
def encodeLabels : List Bytes → Nat → Option Bytes
  | [], _ => some []
  | label :: labels, pos =>
    if label = [] ∨ label.length > 63 ∨ pos + 1 + label.length ≥ 128 then none
    else (encodeLabels labels (pos + 1 + label.length)).map fun rest =>
      UInt8.ofNat label.length :: label ++ rest

/-- The question section for a name: its labels, type A and class IN. -/
def question (hostname : Bytes) : Option Bytes :=
  (encodeLabels (hostname.splitOn 46) DNS_HDR_SIZE).map fun labels => labels ++ [0, 0, 1, 0, 1]

/-- `build_query`. -/
def buildQuery (txId : UInt16) (hostname : Bytes) : Option Bytes :=
  (question hostname).map fun q =>
    beBytes 2 txId.toNat ++ [1, 0, 0, 1, 0, 0, 0, 0, 0, 0] ++ q

/-! ## Responses -/

/-- The loop of `skip_name`: the position, the jumps and `first_end`.  It is `none` outside when it
has not returned after so many rounds. -/
def skipLoop (data : Bytes) : Nat → Nat → Nat → Option Nat → Option (Option Nat)
  | 0, _, _, _ => none
  | fuel + 1, pos, jumps, firstEnd =>
    if pos ≥ data.length ∨ jumps > 10 then some none
    else
      let b := data.getD pos 0
      if b = 0 then some (some (firstEnd.getD (pos + 1)))
      else if b.toNat / 64 = 3 then
        if pos + 1 ≥ data.length then some none
        else skipLoop data fuel (b.toNat % 64 * 256 + (data.getD (pos + 1) 0).toNat) (jumps + 1)
          (firstEnd.or (some (pos + 2)))
      else skipLoop data fuel (pos + 1 + b.toNat) jumps firstEnd

/-- `skip_name`. -/
def skipName (data : Bytes) (pos : Nat) : Option Nat :=
  (skipLoop data (12 * (data.length + 1)) pos 0 none).join

/-- The loop of `skip_name` returns: a label moves on, and the jumps are counted. -/
theorem skipLoop_returns {data : Bytes} {fuel fuel' pos jumps : Nat} {firstEnd : Option Nat}
    (h : (11 - jumps) * (data.length + 1) + (data.length - pos) < fuel)
    (h' : (11 - jumps) * (data.length + 1) + (data.length - pos) < fuel') :
    ∃ r, skipLoop data fuel pos jumps firstEnd = some r ∧
      skipLoop data fuel' pos jumps firstEnd = some r := by
  induction fuel generalizing fuel' pos jumps firstEnd with
  | zero => omega
  | succ fuel ih =>
    cases fuel' with
    | zero => omega
    | succ fuel' =>
      simp only [skipLoop]
      split
      · exact ⟨_, rfl, rfl⟩
      · next hin =>
        obtain ⟨k, hk⟩ : ∃ k, 11 - jumps = k + 1 := ⟨10 - jumps, by omega⟩
        have hk' : 11 - (jumps + 1) = k := by omega
        rw [hk, Nat.succ_mul] at h h'
        split
        · exact ⟨_, rfl, rfl⟩
        · split
          · split
            · exact ⟨_, rfl, rfl⟩
            · exact ih (by rw [hk']; omega) (by rw [hk']; omega)
          · exact ih (by rw [hk, Nat.succ_mul]; omega) (by rw [hk, Nat.succ_mul]; omega)

/-- The loop of `skip_name` has returned after so many rounds, and any larger bound gives the same
answer. -/
theorem skipLoop_eq_skipName (data : Bytes) (pos : Nat) {fuel : Nat}
    (h : 12 * (data.length + 1) ≤ fuel) :
    skipLoop data fuel pos 0 none = some (skipName data pos) := by
  obtain ⟨r, hr, hr'⟩ :=
    @skipLoop_returns data fuel (12 * (data.length + 1)) pos 0 none (by omega) (by omega)
  rw [hr, skipName, hr', Option.join_some]

theorem skipLoop_eq_skipName_selfPointer :
    skipLoop [0xC0, 0] 1000 0 0 none = some (skipName [0xC0, 0] 0) :=
  skipLoop_eq_skipName [0xC0, 0] 0 (by decide)

/-- The answer records of `parse_response`. -/
def parseAnswers (data : Bytes) : Nat → Nat → Option Ip
  | 0, _ => none
  | n + 1, pos =>
    if pos ≥ data.length then none
    else match skipName data pos with
      | none => none
      | some pos =>
        if pos + 10 > data.length then none
        else
          let rtype := be16 data pos
          let rdlength := be16 data (pos + 8)
          let pos := pos + 10
          if rtype = DNS_TYPE_A ∧ rdlength = 4 ∧ pos + 4 ≤ data.length then
            some ⟨data.getD pos 0, data.getD (pos + 1) 0, data.getD (pos + 2) 0,
              data.getD (pos + 3) 0⟩
          else parseAnswers data n (pos + rdlength)

/-- `parse_response`. -/
def parseResponse (data : Bytes) (expected : UInt16) : Option Ip :=
  if data.length < DNS_HDR_SIZE then none
  else if be16 data 0 ≠ expected.toNat then none
  else if be16 data 2 / 2 ^ 15 % 2 = 0 then none
  else if be16 data 2 % 16 ≠ 0 then none
  else if be16 data 6 = 0 then none
  else match skipName data DNS_HDR_SIZE with
    | none => none
    | some pos => parseAnswers data (be16 data 6) (pos + 4)

/-! ## The shared state -/

/-- `DnsQuery`. -/
structure DnsQuery where
  active : Bool
  txId : UInt16
  serverIp : Ip
  serverPort : Nat
  question : Bytes
  response : Bytes
  responseReady : Bool

/-- `DnsQuery::new`. -/
def DnsQuery.new : DnsQuery := ⟨false, 0, ⟨0, 0, 0, 0⟩, 0, [], [], false⟩

/-- The bytes of a datagram that stand where a question of this length would. -/
def Datagram.echo (d : Datagram) (len : Nat) : Bytes := (d.data.drop DNS_HDR_SIZE).take len

/-- The checks of `handle_response`. -/
def DnsQuery.Accepts (q : DnsQuery) (d : Datagram) : Prop :=
  (DNS_HDR_SIZE ≤ d.data.length ∧ d.data.length ≤ DNS_MAX_RESPONSE) ∧
    q.active = true ∧ q.responseReady = false ∧
    (d.srcIp = q.serverIp ∧ d.srcPort = q.serverPort) ∧
    be16 d.data 0 = q.txId.toNat ∧
    be16 d.data 2 / 2 ^ 15 % 2 = 1 ∧
    be16 d.data 4 = 1 ∧
    DNS_HDR_SIZE + q.question.length ≤ d.data.length ∧
    d.echo q.question.length = q.question

instance (q : DnsQuery) (d : Datagram) : Decidable (q.Accepts d) :=
  inferInstanceAs (Decidable (_ ∧ _))

/-- `handle_response`. -/
def DnsQuery.handleResponse (q : DnsQuery) (d : Datagram) : DnsQuery :=
  if q.Accepts d then { q with response := d.data, responseReady := true } else q

/-- `DnsCacheEntry`. -/
structure DnsCacheEntry where
  name : Bytes
  ip : Ip
  timestamp : Nat
  valid : Bool
  server : Ip

/-- `DnsCacheEntry::empty`. -/
def DnsCacheEntry.empty : DnsCacheEntry := ⟨[], ⟨0, 0, 0, 0⟩, 0, false, ⟨0, 0, 0, 0⟩⟩

/-- The slot that `cache_result` takes: the first free one, or the oldest. -/
def cacheSlot : List DnsCacheEntry → Nat → Nat → Nat → Nat
  | [], _, oldestIdx, _ => oldestIdx
  | entry :: entries, i, oldestIdx, oldestTs =>
    if !entry.valid then i
    else if entry.timestamp < oldestTs then cacheSlot entries (i + 1) i entry.timestamp
    else cacheSlot entries (i + 1) oldestIdx oldestTs

/-- `cache_result`. -/
def cacheResult (cache : List DnsCacheEntry) (hostname : Bytes) (ip : Ip) (now : Nat)
    (server : Ip) : List DnsCacheEntry :=
  cache.set (cacheSlot cache 0 0 (2 ^ 64 - 1)) ⟨hostname, ip, now, true, server⟩

/-- The loop over the cache in `resolve`. -/
def cacheLookup (cache : List DnsCacheEntry) (hostname : Bytes) (now : Nat) :
    Option DnsCacheEntry :=
  cache.find? fun e =>
    e.valid && e.name == hostname && decide (now - e.timestamp < DNS_CACHE_TTL_TICKS)

/-! ## Calls of `resolve` -/

/-- The local variables of a call that has built its query. -/
structure Call where
  hostname : Bytes
  now : Nat
  txId : UInt16
  question : Bytes
  serverIp : Ip

/-- Where a task is. -/
inductive Phase where
  | idle
  | missed (hostname : Bytes) (now : Nat)
  | prepared (c : Call)
  | polling (c : Call)
  | answered (c : Call) (result : Option Ip)
  | disarmed (c : Call) (result : Option Ip)

/-- An address that a call returned, with the server that was asked for it. -/
structure Returned where
  hostname : Bytes
  server : Ip
  ip : Ip
  deriving DecidableEq

structure State where
  server : Ip
  cache : List DnsCacheEntry
  query : DnsQuery
  phase : Nat → Phase
  received : List Datagram
  returned : List Returned

def init : State where
  server := ⟨8, 8, 8, 8⟩
  cache := List.replicate DNS_CACHE_SIZE .empty
  query := .new
  phase := fun _ => .idle
  received := []
  returned := []

/-- The steps of the tasks, and what happens between them. -/
inductive Op where
  | lookup (t : Nat) (hostname : Bytes) (now : Nat)
  | prepare (t : Nat) (txId : UInt16)
  | arm (t : Nat)
  | poll (t : Nat) (clock : Nat)
  | disarm (t : Nat)
  | finish (t : Nat)
  | deliver (d : Datagram)
  | setDnsServer (ip : Ip)

namespace State

variable (s : State)

def go (t : Nat) (p : Phase) : State := { s with phase := Function.update s.phase t p }

/-- `resolve` up to the lookup in the cache. -/
def lookup (t : Nat) (hostname : Bytes) (now : Nat) : State :=
  if hostname = [] ∨ hostname.length > DNS_MAX_NAME_LEN then s
  else match cacheLookup s.cache hostname now with
    | some e => { s with returned := ⟨hostname, e.server, e.ip⟩ :: s.returned }
    | none => s.go t (.missed hostname now)

/-- The query is built, and the server is read. -/
def prepare (t : Nat) (hostname : Bytes) (now : Nat) (txId : UInt16) : State :=
  match buildQuery txId hostname with
  | none => s.go t .idle
  | some query =>
    let question := query.drop DNS_HDR_SIZE
    if question.length > DNS_QUESTION_MAX then s.go t .idle
    else s.go t (.prepared ⟨hostname, now, txId, question, s.server⟩)

/-- The pending record is armed, and the query is sent. -/
def arm (t : Nat) (c : Call) : State :=
  { s.go t (.polling c) with
    query := ⟨true, c.txId, c.serverIp, DNS_SERVER_PORT, c.question, [], false⟩ }

/-- A round of the polling loop, after `net_poll`. -/
def poll (t : Nat) (c : Call) (clock : Nat) : State :=
  if clock < c.now + DNS_TIMEOUT_TICKS then
    if s.query.responseReady then
      s.go t (.answered c (parseResponse s.query.response c.txId))
    else s
  else s.go t (.answered c none)

/-- The record is disarmed. -/
def disarm (t : Nat) (c : Call) (result : Option Ip) : State :=
  { s.go t (.disarmed c result) with query := { s.query with active := false } }

/-- The address is cached and returned. -/
def finish (t : Nat) (c : Call) : Option Ip → State
  | none => s.go t .idle
  | some ip => { s.go t .idle with
      cache := cacheResult s.cache c.hostname ip c.now c.serverIp
      returned := ⟨c.hostname, c.serverIp, ip⟩ :: s.returned }

end State

/-- One step.  A step that its task is not at changes nothing. -/
def step (s : State) : Op → State
  | .lookup t hostname now =>
    match s.phase t with
    | .idle => s.lookup t hostname now
    | _ => s
  | .prepare t txId =>
    match s.phase t with
    | .missed hostname now => s.prepare t hostname now txId
    | _ => s
  | .arm t =>
    match s.phase t with
    | .prepared c => s.arm t c
    | _ => s
  | .poll t clock =>
    match s.phase t with
    | .polling c => s.poll t c clock
    | _ => s
  | .disarm t =>
    match s.phase t with
    | .answered c result => s.disarm t c result
    | _ => s
  | .finish t =>
    match s.phase t with
    | .disarmed c result => s.finish t c result
    | _ => s
  | .deliver d => { s with query := s.query.handleResponse d, received := d :: s.received }
  | .setDnsServer ip => { s with server := ip }

end RobotOs.Net.Dns
