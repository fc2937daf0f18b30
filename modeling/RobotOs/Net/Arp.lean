import RobotOs.Lib.Framing
import RobotOs.Lib.Run

/-!
# The ARP cache

`arp.rs` of the net crate: the cache of sixteen addresses, the table of the
requests that wait for an answer, and the handler of received packets.  It
learns the sender of a request for this host, and the sender of a reply that
answers a recent request.  Addresses are byte strings; the time is that of the
`clint` timer when the packet or the request is handled.

`insert_eq` says what an insertion does to a cache without duplicates, and the
lemmas on lookups come from it.  `Logged` ties the pending table to the requests
of the run, and `Sourced` the cache to its packets.
-/

namespace RobotOs.Net.Arp

open RobotOs.Lib.Framing RobotOs.Lib.Run

def ARP_CACHE_SIZE : Nat := 16
def ARP_PENDING_SIZE : Nat := 8
def ARP_PENDING_TTL_TICKS : Nat := 5 * 10000000
def ARP_HARDWARE_ETHERNET : Nat := 1
def ARP_PROTO_IP : Nat := 0x0800
def ARP_HLEN_ETH : Nat := 6
def ARP_PLEN_IP : Nat := 4
def ARP_OP_REQUEST : Nat := 1
def ARP_OP_REPLY : Nat := 2
def ARP_PKT_SIZE : Nat := 28

/-! ## The cache -/

structure ArpEntry where
  ip : Bytes
  mac : Bytes
  valid : Bool
  age : UInt32

def ArpEntry.new : ArpEntry := ⟨[0, 0, 0, 0], [0, 0, 0, 0, 0, 0], false, 0⟩

structure ArpCache where
  entries : Fin ARP_CACHE_SIZE → ArpEntry
  tick : UInt32

namespace ArpCache

def new : ArpCache := ⟨fun _ => .new, 0⟩

def find (c : ArpCache) (ip : Bytes) : Option (Fin ARP_CACHE_SIZE) :=
  (List.finRange ARP_CACHE_SIZE).find? fun i => (c.entries i).valid && (c.entries i).ip == ip

/-- `lookup`. -/
def lookup (c : ArpCache) (ip : Bytes) : Option Bytes := (c.find ip).map fun i => (c.entries i).mac

/-- The first index with the least key: `min_by_key`, and the loop of `record_pending`. -/
def oldest {n : Nat} (start : Fin n) (key : Fin n → Nat) : Fin n :=
  (List.finRange n).foldl (fun best i => if key i < key best then i else best) start

/-- The place of a new entry: a free one or the oldest. -/
def place (c : ArpCache) : Fin ARP_CACHE_SIZE :=
  ((List.finRange ARP_CACHE_SIZE).find? fun i => !(c.entries i).valid).getD
    (oldest ⟨0, Nat.succ_pos _⟩ fun i => (c.entries i).age.toNat)

def insert (c : ArpCache) (ip mac : Bytes) : ArpCache :=
  match c.find ip with
  | some i =>
    let entry := { c.entries i with mac := mac, age := c.tick }
    { c with entries := Function.update c.entries i entry }
  | none => ⟨Function.update c.entries c.place ⟨ip, mac, true, c.tick⟩, c.tick + 1⟩

end ArpCache

/-! ## Outstanding requests -/

structure PendingArp where
  ip : Bytes
  sent : Nat
  valid : Bool

def PendingArp.new : PendingArp := ⟨[0, 0, 0, 0], 0, false⟩

abbrev Pending := Fin ARP_PENDING_SIZE → PendingArp

def findPending (p : Pending) (ip : Bytes) : Option (Fin ARP_PENDING_SIZE) :=
  (List.finRange ARP_PENDING_SIZE).find? fun i => (p i).valid && (p i).ip == ip

def recordPending (p : Pending) (ip : Bytes) (now : Nat) : Pending :=
  match findPending p ip with
  | some i => Function.update p i { p i with sent := now }
  | none =>
    let free := (List.finRange ARP_PENDING_SIZE).find? fun i => !(p i).valid
    let idx := free.getD (ArpCache.oldest ⟨0, Nat.succ_pos _⟩ fun i => (p i).sent)
    Function.update p idx ⟨ip, now, true⟩

/-- The request is retired in both cases. -/
def takePending (p : Pending) (ip : Bytes) (now : Nat) : Bool × Pending :=
  match findPending p ip with
  | some i =>
    (decide (now - (p i).sent < ARP_PENDING_TTL_TICKS),
      Function.update p i { p i with valid := false })
  | none => (false, p)

/-! ## Packets -/

/-- A packet that passes the checks of `handle`: its operation, its sender and
the address it is for. -/
structure Packet where
  oper : Nat
  sha : Bytes
  spa : Bytes
  tpa : Bytes
  deriving DecidableEq

/-- The checks of the fixed header and of the sender. -/
def parse (payload : Bytes) : Option Packet :=
  let sha := slice payload 8 6
  let spa := slice payload 14 4
  if payload.length < ARP_PKT_SIZE then none
  else if ofBE (slice payload 0 2) ≠ ARP_HARDWARE_ETHERNET then none
  else if ofBE (slice payload 2 2) ≠ ARP_PROTO_IP then none
  else if ofBE (slice payload 4 1) ≠ ARP_HLEN_ETH ∨ ofBE (slice payload 5 1) ≠ ARP_PLEN_IP then none
  else if spa = [0, 0, 0, 0] ∨ spa = [0xff, 0xff, 0xff, 0xff] ∨ sha.headD 0 &&& 1 ≠ 0 then none
  else some ⟨ofBE (slice payload 6 2), sha, spa, slice payload 24 4⟩

structure State where
  cache : ArpCache
  pending : Pending

def State.new : State := ⟨.new, fun _ => .new⟩

/-- The learning rule of `handle`. -/
def learn (s : State) (pkt : Packet) (ourIp : Bytes) (now : Nat) : State :=
  if pkt.oper = ARP_OP_REQUEST ∧ pkt.tpa = ourIp then
    { s with cache := s.cache.insert pkt.spa pkt.sha }
  else if pkt.oper = ARP_OP_REPLY ∧ pkt.tpa = ourIp then
    let taken := takePending s.pending pkt.spa now
    if taken.1 then ⟨s.cache.insert pkt.spa pkt.sha, taken.2⟩ else ⟨s.cache, taken.2⟩
  else s

/-- `handle`.  Returns the hardware and the protocol address that a reply goes to. -/
def handle (s : State) (payload ourIp : Bytes) (now : Nat) : State × Option (Bytes × Bytes) :=
  match parse payload with
  | none => (s, none)
  | some pkt =>
    (learn s pkt ourIp now,
      if pkt.tpa = ourIp ∧ pkt.oper = ARP_OP_REQUEST then some (pkt.sha, pkt.spa) else none)

/-- What happens to the two tables: a packet arrives, or `send_request` asks. -/
inductive Op where
  | receive (payload ourIp : Bytes) (now : Nat)
  | request (target : Bytes) (now : Nat)

variable {c : ArpCache} {ip : Bytes} {p : Pending} {history : List Op}

def step (s : State) : Op → State
  | .receive payload ourIp now => (handle s payload ourIp now).1
  | .request target now => { s with pending := recordPending s.pending target now }

theorem step_receive (s : State) (payload ourIp : Bytes) (now : Nat) :
    step s (.receive payload ourIp now) =
      (parse payload).elim s fun pkt => learn s pkt ourIp now := by
  simp only [step, handle]
  cases parse payload <;> rfl

/-! ## Insertions -/

namespace ArpCache

/-- No address has two entries. -/
def Unique (c : ArpCache) : Prop :=
  ∀ i j, (c.entries i).valid → (c.entries j).valid → (c.entries i).ip = (c.entries j).ip → i = j

theorem of_find {i : Fin ARP_CACHE_SIZE} (h : c.find ip = some i) :
    (c.entries i).valid ∧ (c.entries i).ip = ip := by
  simpa using List.find?_some h

theorem of_find_none (h : c.find ip = none) (i : Fin ARP_CACHE_SIZE)
    (hvalid : (c.entries i).valid) : (c.entries i).ip ≠ ip := by
  have hall := List.find?_eq_none.mp h i (List.mem_finRange i)
  simpa [hvalid] using hall

/-- Either way one entry is written, and no other one has the address. -/
theorem insert_eq (hc : c.Unique) (ip mac : Bytes) :
    ∃ i age, (c.insert ip mac).entries = Function.update c.entries i ⟨ip, mac, true, age⟩ ∧
      ∀ j, j ≠ i → (c.entries j).valid → (c.entries j).ip ≠ ip := by
  unfold insert
  cases hfind : c.find ip with
  | some i =>
    obtain ⟨hvalid, hip⟩ := of_find hfind
    refine ⟨i, c.tick, ?_, fun j hj hj' heq => hj (hc j i hj' hvalid (heq.trans hip.symm))⟩
    rw [← hip, ← hvalid]
  | none => exact ⟨c.place, c.tick, rfl, fun j _ hj => of_find_none hfind j hj⟩

theorem unique_insert (hc : c.Unique) (ip mac : Bytes) :
    (c.insert ip mac).Unique := by
  obtain ⟨k, age, hentries, hother⟩ := insert_eq hc ip mac
  intro i j hi hj hij
  rw [hentries] at hi hj hij
  by_cases hik : i = k <;> by_cases hjk : j = k
  · exact hik.trans hjk.symm
  · rw [hik, Function.update_self, Function.update_of_ne hjk] at hij
    rw [Function.update_of_ne hjk] at hj
    exact absurd hij.symm (hother j hjk hj)
  · rw [hjk, Function.update_self, Function.update_of_ne hik] at hij
    rw [Function.update_of_ne hik] at hi
    exact absurd hij (hother i hik hi)
  · rw [Function.update_of_ne hik] at hi hij
    rw [Function.update_of_ne hjk] at hj hij
    exact hc i j hi hj hij

/-- The cached addresses. -/
theorem lookup_eq_some (hc : c.Unique) {mac : Bytes} :
    c.lookup ip = some mac ↔
      ∃ i, (c.entries i).valid ∧ (c.entries i).ip = ip ∧ (c.entries i).mac = mac := by
  unfold lookup
  constructor
  · intro h
    obtain ⟨i, hfind, hmac⟩ := Option.map_eq_some_iff.mp h
    exact ⟨i, (of_find hfind).1, (of_find hfind).2, hmac⟩
  · intro ⟨i, hvalid, hip, hmac⟩
    cases hfind : c.find ip with
    | none => exact absurd hip (of_find_none hfind i hvalid)
    | some j =>
      have hij := hc j i (of_find hfind).1 hvalid ((of_find hfind).2.trans hip.symm)
      rw [Option.map_some, hij, hmac]

theorem lookup_insert_self (hc : c.Unique) (ip mac : Bytes) :
    (c.insert ip mac).lookup ip = some mac := by
  obtain ⟨i, age, hentries, -⟩ := insert_eq hc ip mac
  refine (lookup_eq_some (unique_insert hc ip mac)).mpr ⟨i, ?_⟩
  rw [hentries, Function.update_self]
  exact ⟨rfl, rfl, rfl⟩

/-- Another address keeps what it has, or is evicted. -/
theorem lookup_of_insert (hc : c.Unique) {mac other m : Bytes} (hne : other ≠ ip)
    (h : (c.insert ip mac).lookup other = some m) : c.lookup other = some m := by
  obtain ⟨i, age, hentries, -⟩ := insert_eq hc ip mac
  obtain ⟨j, hvalid, hip, hmac⟩ := (lookup_eq_some (unique_insert hc ip mac)).mp h
  rw [hentries] at hvalid hip hmac
  by_cases hji : j = i
  · rw [hji, Function.update_self] at hip
    exact absurd hip.symm hne
  · rw [Function.update_of_ne hji] at hvalid hip hmac
    exact (lookup_eq_some hc).mpr ⟨j, hvalid, hip, hmac⟩

end ArpCache

/-! ## Runs -/

/-- Each pending request was sent at its time. -/
def Logged (history : List Op) (p : Pending) : Prop :=
  ∀ i, (p i).valid → .request (p i).ip (p i).sent ∈ history

theorem of_findPending {i : Fin ARP_PENDING_SIZE} (h : findPending p ip = some i) :
    (p i).valid ∧ (p i).ip = ip := by
  simpa using List.find?_some h

theorem logged_recordPending (h : Logged history p) (ip : Bytes) (now : Nat) :
    Logged (history ++ [.request ip now]) (recordPending p ip now) := by
  have hnew : ∀ i (e : PendingArp), e.ip = ip → e.sent = now →
      Logged (history ++ [.request ip now]) (Function.update p i e) := by
    intro i e hip hsent j hj
    by_cases hji : j = i
    · rw [hji, Function.update_self, hip, hsent]
      simp
    · rw [Function.update_of_ne hji] at hj ⊢
      exact List.mem_append_left _ (h j hj)
  unfold recordPending
  cases hfind : findPending p ip with
  | some i => exact hnew i _ (of_findPending hfind).2 rfl
  | none => exact hnew _ _ rfl rfl

theorem logged_takePending (h : Logged history p) (ip : Bytes) (now : Nat) :
    Logged history (takePending p ip now).2 := by
  unfold takePending
  cases findPending p ip with
  | none => exact h
  | some i =>
    intro j hj
    by_cases hji : j = i
    · simp [hji] at hj
    · simp only [Function.update_of_ne hji] at hj ⊢
      exact h j hj

/-- A reply is taken only within the lifetime of a request. -/
theorem request_of_takePending (h : Logged history p) {now : Nat}
    (htake : (takePending p ip now).1 = true) :
    ∃ sent, .request ip sent ∈ history ∧ now - sent < ARP_PENDING_TTL_TICKS := by
  unfold takePending at htake
  cases hfind : findPending p ip with
  | none => simp [hfind] at htake
  | some i =>
    obtain ⟨hvalid, hip⟩ := of_findPending hfind
    simp only [hfind, decide_eq_true_eq] at htake
    exact ⟨(p i).sent, hip ▸ h i hvalid, htake⟩

/-- What a packet does to the cache: nothing, or one insertion by a request for
this host or by a reply that `take_pending` lets through. -/
theorem learn_cases (s : State) (pkt : Packet) (ourIp : Bytes) (now : Nat) :
    (learn s pkt ourIp now).cache = s.cache ∨
      (learn s pkt ourIp now).cache = s.cache.insert pkt.spa pkt.sha ∧ pkt.tpa = ourIp ∧
        (pkt.oper = ARP_OP_REQUEST ∨
          pkt.oper = ARP_OP_REPLY ∧ (takePending s.pending pkt.spa now).1 = true) := by
  unfold learn
  by_cases hrequest : pkt.oper = ARP_OP_REQUEST ∧ pkt.tpa = ourIp
  · rw [if_pos hrequest]
    exact .inr ⟨rfl, hrequest.2, .inl hrequest.1⟩
  · rw [if_neg hrequest]
    by_cases hreply : pkt.oper = ARP_OP_REPLY ∧ pkt.tpa = ourIp
    · rw [if_pos hreply]
      by_cases hfresh : (takePending s.pending pkt.spa now).1 = true
      · rw [if_pos hfresh]
        exact .inr ⟨rfl, hreply.2, .inr ⟨hreply.1, hfresh⟩⟩
      · rw [if_neg hfresh]
        exact .inl rfl
    · rw [if_neg hreply]
      exact .inl rfl

theorem pending_learn (s : State) (pkt : Packet) (ourIp : Bytes) (now : Nat) :
    (learn s pkt ourIp now).pending = s.pending ∨
      (learn s pkt ourIp now).pending = (takePending s.pending pkt.spa now).2 := by
  unfold learn
  split_ifs
  · exact .inl rfl
  · dsimp only
    split_ifs
    · exact .inr rfl
    · exact .inr rfl
  · exact .inl rfl

/-- The state after a history of packets and requests. -/
def after (history : List Op) : State := run step .new history

theorem after_sound (history : List Op) :
    (after history).cache.Unique ∧ Logged history (after history).pending := by
  induction history using List.reverseRecOn with
  | nil =>
    exact ⟨fun _ _ hi => absurd hi Bool.false_ne_true, fun _ hi => absurd hi Bool.false_ne_true⟩
  | append_singleton history op ih =>
    obtain ⟨hunique, hlogged⟩ := ih
    rw [after, run_concat]
    change (step (after history) op).cache.Unique ∧
      Logged (history ++ [op]) (step (after history) op).pending
    generalize after history = s at hunique hlogged
    cases op with
    | request target now => exact ⟨hunique, logged_recordPending hlogged target now⟩
    | receive payload ourIp now =>
      have hgrown : ∀ p, Logged history p → Logged (history ++ [.receive payload ourIp now]) p :=
        fun p hp i hi => List.mem_append_left _ (hp i hi)
      rw [step_receive]
      cases parse payload with
      | none => exact ⟨hunique, hgrown _ hlogged⟩
      | some pkt =>
        refine ⟨?_, hgrown _ ?_⟩
        · obtain hsame | ⟨hinsert, -⟩ := learn_cases s pkt ourIp now
          · exact hsame.symm ▸ hunique
          · exact hinsert.symm ▸ ArpCache.unique_insert hunique _ _
        · obtain hsame | htake := pending_learn s pkt ourIp now
          · exact hsame.symm ▸ hlogged
          · exact htake.symm ▸ logged_takePending hlogged _ _

/-! ## Rewriting an entry -/

/-- The packet is a reply for this host from `ip`, to a request that this host
sent for `ip` within the lifetime. -/
def Solicited (history : List Op) (ip : Bytes) : Op → Prop
  | .receive payload ourIp now =>
    (∃ pkt, parse payload = some pkt ∧ pkt.oper = ARP_OP_REPLY ∧ pkt.tpa = ourIp ∧ pkt.spa = ip) ∧
      ∃ sent, .request ip sent ∈ history ∧ now - sent < ARP_PENDING_TTL_TICKS
  | .request _ _ => False

/-- A cached address that stays cached gets another hardware address only from a
solicited reply. -/
def RewritesOnlySolicited (history : List Op) (op : Op) : Prop :=
  ∀ ip mac mac', (after history).cache.lookup ip = some mac →
    (after (history ++ [op])).cache.lookup ip = some mac' → mac ≠ mac' → Solicited history ip op

/-- A request for this host from an address that is cached with another hardware
address. -/
def Overwrites (s : State) : Op → Prop
  | .receive payload ourIp _ => ∃ pkt mac, parse payload = some pkt ∧ pkt.oper = ARP_OP_REQUEST ∧
      pkt.tpa = ourIp ∧ s.cache.lookup pkt.spa = some mac ∧ mac ≠ pkt.sha
  | .request _ _ => False

/-- After any history, the next operation is safe exactly if it is no such request. -/
theorem rewritesOnlySolicited_iff (history : List Op) (op : Op) :
    RewritesOnlySolicited history op ↔ ¬ Overwrites (after history) op := by
  obtain ⟨hunique, hlogged⟩ := after_sound history
  have hnext : after (history ++ [op]) = step (after history) op := run_concat _ _ _
  unfold RewritesOnlySolicited
  rw [hnext]
  generalize after history = s at *
  cases op with
  | request target now =>
    refine ⟨fun _ h => h, fun _ ip mac mac' hmac hmac' hne => ?_⟩
    exact absurd (Option.some_inj.mp (hmac.symm.trans hmac')) hne
  | receive payload ourIp now =>
    constructor
    · intro hsafe ⟨pkt, mac, hparse, hoper, htpa, hmac, hne⟩
      -- The request is learned, so the address has the new hardware address.
      have hlearn : (step s (.receive payload ourIp now)).cache =
          s.cache.insert pkt.spa pkt.sha := by
        rw [step_receive, hparse, Option.elim_some, learn, if_pos ⟨hoper, htpa⟩]
      have hmac' := ArpCache.lookup_insert_self hunique pkt.spa pkt.sha
      rw [← hlearn] at hmac'
      obtain ⟨⟨pkt', hparse', hoper', -⟩, -⟩ := hsafe _ _ _ hmac hmac' hne
      rw [hparse, Option.some_inj] at hparse'
      rw [← hparse', hoper] at hoper'
      exact absurd hoper' (by decide)
    · intro hsafe ip mac mac' hmac hmac' hne
      cases hparse : parse payload with
      | none =>
        rw [step_receive, hparse] at hmac'
        exact absurd (Option.some_inj.mp (hmac.symm.trans hmac')) hne
      | some pkt =>
        rw [step_receive, hparse, Option.elim_some] at hmac'
        obtain hsame | ⟨hinsert, htpa, hcause⟩ := learn_cases s pkt ourIp now
        · rw [hsame] at hmac'
          exact absurd (Option.some_inj.mp (hmac.symm.trans hmac')) hne
        · rw [hinsert] at hmac'
          by_cases hip : ip = pkt.spa
          · rw [hip, ArpCache.lookup_insert_self hunique, Option.some_inj] at hmac'
            obtain hrequest | ⟨hreply, hfresh⟩ := hcause
            · exact absurd ⟨pkt, mac, hparse, hrequest, htpa, hip ▸ hmac, hmac' ▸ hne⟩ hsafe
            · rw [hip]
              exact ⟨⟨pkt, hparse, hreply, htpa, rfl⟩, request_of_takePending hlogged hfresh⟩
          · have hkept := ArpCache.lookup_of_insert hunique hip hmac'
            exact absurd (Option.some_inj.mp (hmac.symm.trans hkept)) hne

/-- A request for `10.0.0.1` from `10.0.0.2` with the given hardware address. -/
def requestFrom (sha : Bytes) : Op :=
  .receive ([0, 1, 8, 0, 6, 4, 0, 1] ++ sha ++ [10, 0, 0, 2] ++ [0, 0, 0, 0, 0, 0] ++ [10, 0, 0, 1])
    [10, 0, 0, 1] 0

/-- The second request rewrites the entry of the first one. -/
theorem request_rewrites :
    ¬ RewritesOnlySolicited [requestFrom [2, 0, 0, 0, 0, 2]] (requestFrom [2, 0, 0, 0, 0, 3]) := by
  intro hsafe
  obtain ⟨⟨pkt, hparse, hoper, -⟩, -⟩ := hsafe [10, 0, 0, 2] [2, 0, 0, 0, 0, 2] [2, 0, 0, 0, 0, 3]
    (by decide) (by decide) (by decide)
  have hrequest : parse ([0, 1, 8, 0, 6, 4, 0, 1] ++ [2, 0, 0, 0, 0, 3] ++ [10, 0, 0, 2] ++
      [0, 0, 0, 0, 0, 0] ++ [10, 0, 0, 1]) =
      some ⟨1, [2, 0, 0, 0, 0, 3], [10, 0, 0, 2], [10, 0, 0, 1]⟩ := by decide
  rw [hrequest, Option.some_inj] at hparse
  rw [← hparse] at hoper
  exact absurd hoper (by decide)

/-! ## Where an entry comes from -/

/-- A history has a packet for this host that gives the hardware address: a request, or a reply
to a request that was sent before the packet and within the lifetime. -/
def Sourced (history : List Op) (ip mac : Bytes) : Prop :=
  ∃ pre payload ourIp now post pkt, history = pre ++ .receive payload ourIp now :: post ∧
    parse payload = some pkt ∧ pkt.spa = ip ∧ pkt.sha = mac ∧ pkt.tpa = ourIp ∧
    (pkt.oper = ARP_OP_REQUEST ∨ pkt.oper = ARP_OP_REPLY ∧
      ∃ sent, .request ip sent ∈ pre ∧ now - sent < ARP_PENDING_TTL_TICKS)

theorem Sourced.append {mac : Bytes} (h : Sourced history ip mac) (op : Op) :
    Sourced (history ++ [op]) ip mac := by
  obtain ⟨pre, payload, ourIp, now, post, pkt, rfl, hpkt⟩ := h
  exact ⟨pre, payload, ourIp, now, post ++ [op], pkt, by simp, hpkt⟩

/-- After any history, every address of the cache has its hardware address from such a packet. -/
theorem cache_sourced (history : List Op) :
    ∀ ip mac, (after history).cache.lookup ip = some mac → Sourced history ip mac := by
  induction history using List.reverseRecOn with
  | nil =>
    intro ip mac h
    cases h
  | append_singleton history op ih =>
    intro ip mac h
    obtain ⟨hunique, hlogged⟩ := after_sound history
    have hnext : after (history ++ [op]) = step (after history) op := run_concat _ _ _
    rw [hnext] at h
    generalize after history = s at *
    cases op with
    | request target now => exact (ih ip mac h).append _
    | receive payload ourIp now =>
      rw [step_receive] at h
      cases hparse : parse payload with
      | none =>
        rw [hparse] at h
        exact (ih ip mac h).append _
      | some pkt =>
        rw [hparse, Option.elim_some] at h
        obtain hsame | ⟨hinsert, htpa, hcause⟩ := learn_cases s pkt ourIp now
        · rw [hsame] at h
          exact (ih ip mac h).append _
        · rw [hinsert] at h
          by_cases hip : ip = pkt.spa
          · rw [hip, ArpCache.lookup_insert_self hunique, Option.some_inj] at h
            refine ⟨history, payload, ourIp, now, [], pkt, rfl, hparse, hip.symm, h, htpa, ?_⟩
            refine hcause.imp id fun hreply => ⟨hreply.1, ?_⟩
            rw [hip]
            exact request_of_takePending hlogged hreply.2
          · exact (ih ip mac (ArpCache.lookup_of_insert hunique hip h)).append _

/-- A request for `10.0.0.3` is answered between two requests of another host. -/
def answered : List Op :=
  [requestFrom [2, 0, 0, 0, 0, 2], .request [10, 0, 0, 3] 0,
    .receive ([0, 1, 8, 0, 6, 4, 0, 2] ++ [2, 0, 0, 0, 0, 3] ++ [10, 0, 0, 3] ++
      [2, 0, 0, 0, 0, 1] ++ [10, 0, 0, 1]) [10, 0, 0, 1] 5,
    requestFrom [2, 0, 0, 0, 0, 4]]

theorem cache_sourced_answered :
    Sourced answered [10, 0, 0, 3] [2, 0, 0, 0, 0, 3] ∧
      Sourced answered [10, 0, 0, 2] [2, 0, 0, 0, 0, 4] :=
  ⟨cache_sourced _ _ _ (by decide), cache_sourced _ _ _ (by decide)⟩

end RobotOs.Net.Arp
