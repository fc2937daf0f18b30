import RobotOs.Net.Dns

/-!
# Where the addresses come from

An address belongs to its name when a datagram of the server that was asked
echoes the question for that name and carries the address (`State.Sent`).

The record `DNS_QUERY` is shared, and a call recognises the response in it by the
transaction id alone.  So the link from the answer to the name rests on one fact:
a call that polls and has the id of the record also has its question and its
server (`Inv.agree`).  Arming is the only step that can break it, when the id
collides with the one of a call for another name or another server.
-/

namespace RobotOs.Net.Dns

open RobotOs.Lib.Run
open RobotOs.Lib.Framing (Bytes Ip)

/-- The datagram echoes the question for this name. -/
def Datagram.EchoesName (d : Datagram) (hostname : Bytes) : Prop :=
  ∃ q ∈ question hostname, d.echo q.length = q

instance (d : Datagram) (hostname : Bytes) : Decidable (d.EchoesName hostname) :=
  inferInstanceAs (Decidable (∃ q ∈ question hostname, d.echo q.length = q))

/-- The address is the one in a datagram, sent by the server that was asked, that
echoes the question for the name. -/
def State.Sent (s : State) (r : Returned) : Prop :=
  ∃ d ∈ s.received, (d.srcIp = r.server ∧ d.srcPort = DNS_SERVER_PORT) ∧
    d.EchoesName r.hostname ∧
    parseResponse d.data (UInt16.ofNat (be16 d.data 0)) = some r.ip

instance (s : State) (r : Returned) : Decidable (s.Sent r) :=
  inferInstanceAs (Decidable (∃ d ∈ s.received, _))

/-- What a cache entry says. -/
def DnsCacheEntry.result (e : DnsCacheEntry) : Returned := ⟨e.name, e.server, e.ip⟩

/-- Every address that was returned or cached belongs to its name. -/
def State.AnswersBelong (s : State) : Prop :=
  (∀ r ∈ s.returned, s.Sent r) ∧ ∀ e ∈ s.cache, e.valid = true → s.Sent e.result

instance (s : State) : Decidable s.AnswersBelong := inferInstanceAs (Decidable (_ ∧ _))

/-- No call that polls has the id of this one and asks something else. -/
def Unmistakable (s : State) : Op → Prop
  | .arm t => ∀ c, s.phase t = .prepared c → ∀ u c', s.phase u = .polling c' →
      c'.txId = c.txId → c'.hostname = c.hostname ∧ c'.serverIp = c.serverIp
  | _ => True

/-- The call of a task that has built its query. -/
def Phase.call : Phase → Option Call
  | .idle => none
  | .missed _ _ => none
  | .prepared c => some c
  | .polling c => some c
  | .answered c _ => some c
  | .disarmed c _ => some c

/-- The address that a task is about to return. -/
def Phase.result : Phase → Option Returned
  | .answered c (some ip) => some ⟨c.hostname, c.serverIp, ip⟩
  | .disarmed c (some ip) => some ⟨c.hostname, c.serverIp, ip⟩
  | _ => none

/-- The response in the record answers the question in it. -/
def State.Latched (s : State) : Prop :=
  ∃ d ∈ s.received, d.data = s.query.response ∧
    (d.srcIp = s.query.serverIp ∧ d.srcPort = s.query.serverPort) ∧
    be16 d.data 0 = s.query.txId.toNat ∧ d.echo s.query.question.length = s.query.question

structure Inv (s : State) : Prop where
  question : ∀ t c, (s.phase t).call = some c → question c.hostname = some c.question
  port : s.query.active = true ∨ s.query.responseReady = true →
    s.query.serverPort = DNS_SERVER_PORT
  latched : s.query.responseReady = true → s.Latched
  agree : ∀ t c, s.phase t = .polling c → s.query.txId = c.txId →
    s.query.question = c.question ∧ s.query.serverIp = c.serverIp
  pending : ∀ t r, (s.phase t).result = some r → s.Sent r
  belong : s.AnswersBelong

variable {s s' : State} {t : Nat} {p : Phase}

/-! ## What a step leaves alone -/

theorem State.Sent.mono (hsub : s.received ⊆ s'.received) {r : Returned} (h : s.Sent r) :
    s'.Sent r := by
  obtain ⟨d, hd, h⟩ := h
  exact ⟨d, hsub hd, h⟩

theorem State.go_phase_cases {u : Nat} {p' : Phase} (h : (s.go t p).phase u = p') :
    u = t ∧ p' = p ∨ s.phase u = p' := by
  by_cases hu : u = t
  · subst hu
    exact .inl ⟨rfl, by simpa [State.go] using h.symm⟩
  · exact .inr (by simpa [State.go, hu] using h)

/-- A task moves to a phase in which it does not poll. -/
theorem Inv.go (h : Inv s)
    (hcall : ∀ c, p.call = some c → Dns.question c.hostname = some c.question)
    (hpoll : ∀ c, p ≠ .polling c) (hresult : ∀ r, p.result = some r → s.Sent r) :
    Inv (s.go t p) where
  question u c hc := by
    by_cases hu : u = t
    · subst hu
      exact hcall c (by simpa [State.go] using hc)
    · exact h.question u c (by simpa [State.go, hu] using hc)
  port := h.port
  latched := h.latched
  agree u c hc := by
    obtain ⟨-, rfl⟩ | hc := State.go_phase_cases hc
    · exact absurd rfl (hpoll c)
    · exact h.agree u c hc
  pending u r hr := by
    by_cases hu : u = t
    · subst hu
      exact hresult r (by simpa [State.go] using hr)
    · exact h.pending u r (by simpa [State.go, hu] using hr)
  belong := h.belong

/-! ## The steps -/

theorem Inv.returns (h : Inv s) {r : Returned} (hr : s.Sent r) :
    Inv { s with returned := r :: s.returned } where
  question := h.question
  port := h.port
  latched := h.latched
  agree := h.agree
  pending := h.pending
  belong := by
    refine ⟨fun r' hr' => ?_, h.belong.2⟩
    obtain rfl | hr' := List.mem_cons.mp hr'
    · exact hr
    · exact h.belong.1 r' hr'

theorem Inv.lookup (h : Inv s) (hostname : Bytes) (now : Nat) :
    Inv (s.lookup t hostname now) := by
  unfold State.lookup
  split
  · exact h
  split
  · next e he =>
    have hmem := List.mem_of_find?_eq_some he
    have hmatch := List.find?_some he
    simp only [Bool.and_eq_true, beq_iff_eq] at hmatch
    obtain ⟨⟨hvalid, rfl⟩, -⟩ := hmatch
    exact h.returns (h.belong.2 e hmem hvalid)
  · exact h.go (by simp [Phase.call]) (by simp) (by simp [Phase.result])

theorem question_of_buildQuery {txId : UInt16} {hostname query : Bytes}
    (h : buildQuery txId hostname = some query) :
    question hostname = some (query.drop DNS_HDR_SIZE) := by
  obtain ⟨q, hq, rfl⟩ := Option.map_eq_some_iff.mp h
  rw [hq, List.drop_left' (by simp [DNS_HDR_SIZE])]

theorem Inv.prepare (h : Inv s) (hostname : Bytes) (now : Nat) (txId : UInt16) :
    Inv (s.prepare t hostname now txId) := by
  unfold State.prepare
  split
  · exact h.go (by simp [Phase.call]) (by simp) (by simp [Phase.result])
  · next query hquery =>
    dsimp only
    split
    · exact h.go (by simp [Phase.call]) (by simp) (by simp [Phase.result])
    · refine h.go ?_ (by simp) (by simp [Phase.result])
      rintro c ⟨⟩
      exact question_of_buildQuery hquery

/-- The record is this call's now, and every other call with its id asks the same. -/
theorem Inv.arm (h : Inv s) {c : Call} (hphase : s.phase t = .prepared c)
    (hok : Unmistakable s (.arm t)) : Inv (s.arm t c) where
  question u c' hc' := by
    by_cases hu : u = t
    · subst hu
      have hc' : c = c' := by simpa [State.arm, State.go, Phase.call] using hc'
      subst hc'
      exact h.question u c (by rw [hphase]; rfl)
    · exact h.question u c' (by simpa [State.arm, State.go, hu] using hc')
  port _ := rfl
  latched hready := by cases hready
  agree u c' hc' htx := by
    obtain ⟨-, heq⟩ | hpolling := State.go_phase_cases (s := s) hc'
    · obtain rfl := Phase.polling.inj heq
      exact ⟨rfl, rfl⟩
    · have htx : c.txId = c'.txId := htx
      obtain ⟨hname, hserver⟩ := hok c hphase u c' hpolling htx.symm
      have hq := h.question t c (by rw [hphase]; rfl)
      have hq' := h.question u c' (by rw [hpolling]; rfl)
      rw [hname, hq] at hq'
      exact ⟨Option.some.inj hq', hserver.symm⟩
  pending u r hr := by
    by_cases hu : u = t
    · subst hu
      simp [State.arm, State.go, Phase.result] at hr
    · exact h.pending u r (by simpa [State.arm, State.go, hu] using hr)
  belong := h.belong

theorem be16_of_parseResponse {data : Bytes} {txId : UInt16} {ip : Ip}
    (h : parseResponse data txId = some ip) : be16 data 0 = txId.toNat := by
  unfold parseResponse at h
  split at h
  · cases h
  split at h
  · cases h
  · next hid => exact not_not.mp hid

/-- An address that a call reads out of the record belongs to its name. -/
theorem Inv.sent_of_parse (h : Inv s) {c : Call} (hphase : s.phase t = .polling c)
    (hready : s.query.responseReady = true) {ip : Ip}
    (hparse : parseResponse s.query.response c.txId = some ip) :
    s.Sent ⟨c.hostname, c.serverIp, ip⟩ := by
  obtain ⟨d, hd, hdata, ⟨hip, hport⟩, hid, hecho⟩ := h.latched hready
  have hc := be16_of_parseResponse hparse
  rw [← hdata] at hc hparse
  have htx : s.query.txId = c.txId := UInt16.toNat_inj.mp (hid.symm.trans hc)
  obtain ⟨hquestion, hserver⟩ := h.agree t c hphase htx
  refine ⟨d, hd, ⟨hip.trans hserver, hport.trans (h.port (.inr hready))⟩, ?_, ?_⟩
  · exact ⟨c.question, h.question t c (by rw [hphase]; rfl), hquestion ▸ hecho⟩
  · rwa [hc, UInt16.ofNat_toNat]

theorem Inv.poll (h : Inv s) {c : Call} (hphase : s.phase t = .polling c) (clock : Nat) :
    Inv (s.poll t c clock) := by
  have hcall (result : Option Ip) (c' : Call) (hc' : (Phase.answered c result).call = some c') :
      Dns.question c'.hostname = some c'.question := by
    obtain rfl := Option.some.inj hc'
    exact h.question t c (by rw [hphase]; rfl)
  unfold State.poll
  split
  · split
    · next hready =>
      refine h.go (hcall _) (by simp) fun r hr => ?_
      cases hparse : parseResponse s.query.response c.txId with
      | none => simp [hparse, Phase.result] at hr
      | some ip =>
        rw [hparse] at hr
        obtain rfl := Option.some.inj hr
        exact h.sent_of_parse hphase hready hparse
    · exact h
  · exact h.go (hcall _) (by simp) (by simp [Phase.result])

theorem Inv.disarm (h : Inv s) {c : Call} {result : Option Ip}
    (hphase : s.phase t = .answered c result) : Inv (s.disarm t c result) := by
  have hgo : Inv (s.go t (.disarmed c result)) := by
    refine h.go (fun c' hc' => ?_) (by simp) fun r hr => ?_
    · exact h.question t c' (by rw [hphase]; exact hc')
    · refine h.pending t r ?_
      rw [hphase]
      cases result <;> exact hr
  exact { hgo with port := fun hp => hgo.port (.inr (hp.resolve_left Bool.false_ne_true)) }

theorem cacheResult_mem {cache : List DnsCacheEntry} {hostname : Bytes} {ip server : Ip}
    {now : Nat} {e : DnsCacheEntry} (he : e ∈ cacheResult cache hostname ip now server) :
    e ∈ cache ∨ e = ⟨hostname, ip, now, true, server⟩ :=
  List.mem_or_eq_of_mem_set he

theorem Inv.finish (h : Inv s) {c : Call} {result : Option Ip}
    (hphase : s.phase t = .disarmed c result) : Inv (s.finish t c result) := by
  have hidle : Inv (s.go t .idle) := h.go (by simp [Phase.call]) (by simp) (by simp [Phase.result])
  cases result with
  | none => exact hidle
  | some ip =>
    have hsent : s.Sent ⟨c.hostname, c.serverIp, ip⟩ := h.pending t _ (by rw [hphase]; rfl)
    have hreturned := hidle.returns hsent
    refine { hreturned with belong := ⟨hreturned.belong.1, fun e he hvalid => ?_⟩ }
    obtain he | rfl := cacheResult_mem he
    · exact h.belong.2 e he hvalid
    · exact hsent

theorem Inv.deliver (h : Inv s) (d : Datagram) : Inv (step s (.deliver d)) := by
  have hsub : s.received ⊆ d :: s.received := List.subset_cons_self d _
  have hbelong : (step s (.deliver d)).AnswersBelong :=
    ⟨fun r hr => (h.belong.1 r hr).mono hsub, fun e he hv => (h.belong.2 e he hv).mono hsub⟩
  have hpending (u : Nat) (r : Returned) (hr : (s.phase u).result = some r) :
      (step s (.deliver d)).Sent r := (h.pending u r hr).mono hsub
  by_cases haccept : s.query.Accepts d
  · have hquery : (step s (.deliver d)).query =
        { s.query with response := d.data, responseReady := true } := if_pos haccept
    have haccept' := haccept
    obtain ⟨-, hactive, -, hsource, hid, -, -, -, hecho⟩ := haccept'
    refine ⟨h.question, fun _ => ?_, fun _ => ?_, fun u c hc => ?_, hpending, hbelong⟩
    · rw [hquery]
      exact h.port (.inl hactive)
    · refine ⟨d, List.mem_cons_self, ?_⟩
      rw [hquery]
      exact ⟨rfl, hsource, hid, hecho⟩
    · rw [hquery]
      exact h.agree u c hc
  · have hquery : (step s (.deliver d)).query = s.query := if_neg haccept
    refine ⟨h.question, ?_, fun hready => ?_, fun u c hc => ?_, hpending, hbelong⟩
    · rw [hquery]
      exact h.port
    · rw [hquery] at hready
      obtain ⟨d', hd', h'⟩ := h.latched hready
      refine ⟨d', hsub hd', ?_⟩
      rw [hquery]
      exact h'
    · rw [hquery]
      exact h.agree u c hc

/-! ## Whole runs -/

theorem inv_init : Inv init where
  question t c hc := by simp [init, Phase.call] at hc
  port h := by simp [init, DnsQuery.new] at h
  latched h := by simp [init, DnsQuery.new] at h
  agree t c hc := by simp [init] at hc
  pending t r hr := by simp [init, Phase.result] at hr
  belong := by
    refine ⟨by simp [init], fun e he hvalid => ?_⟩
    obtain rfl := List.eq_of_mem_replicate he
    cases hvalid

theorem Inv.step (h : Inv s) (op : Op) (hok : Unmistakable s op) : Inv (step s op) := by
  cases op with
  | lookup t hostname now =>
    simp only [Dns.step]
    split
    · exact h.lookup hostname now
    · exact h
  | prepare t txId =>
    simp only [Dns.step]
    split
    · exact h.prepare _ _ txId
    · exact h
  | arm t =>
    simp only [Dns.step]
    split
    · next hphase => exact h.arm hphase hok
    · exact h
  | poll t clock =>
    simp only [Dns.step]
    split
    · next hphase => exact h.poll hphase clock
    · exact h
  | disarm t =>
    simp only [Dns.step]
    split
    · next hphase => exact h.disarm hphase
    · exact h
  | finish t =>
    simp only [Dns.step]
    split
    · next hphase => exact h.finish hphase
    · exact h
  | deliver d => exact h.deliver d
  | setDnsServer ip => exact ⟨h.question, h.port, h.latched, h.agree, h.pending, h.belong⟩

/-- In every run in which no call arms its query while another one that polls has
its id and asks something else, every address belongs to its name. -/
theorem answers_belong {ops : List Op} (hok : Guarded step Unmistakable init ops) :
    (run step init ops).AnswersBelong :=
  (run_invariant_of_guarded Inv (fun _ op h hop => h.step op hop) inv_init hok).belong

/-- A response of the default server: id 7, one answer, for a name of one byte. -/
def response (name : UInt8) (ip : Ip) : Datagram where
  srcIp := ⟨8, 8, 8, 8⟩
  srcPort := 53
  data := [0, 7, 0x81, 0x80, 0, 1, 0, 1, 0, 0, 0, 0, 1, name, 0, 0, 1, 0, 1,
    0xC0, 12, 0, 1, 0, 1, 0, 0, 0, 60, 0, 4, ip.a, ip.b, ip.c, ip.d]

/-- A call for `b` takes over from a call for `a` that polls with another id, and is answered. -/
def twoCalls : List Op :=
  [.lookup 0 [97] 0, .prepare 0 8, .arm 0, .lookup 1 [98] 0, .prepare 1 7, .arm 1,
    .deliver (response 98 ⟨10, 0, 0, 2⟩), .poll 0 1, .poll 1 1, .disarm 1, .finish 1]

theorem answers_belong_twoCalls :
    (run step init twoCalls).returned = [⟨[98], ⟨8, 8, 8, 8⟩, ⟨10, 0, 0, 2⟩⟩] ∧
      (run step init twoCalls).AnswersBelong := by
  refine ⟨by decide +kernel, answers_belong ⟨trivial, trivial, ?_, trivial, trivial, ?_, trivial,
    trivial, trivial, trivial, trivial, trivial⟩⟩
  · rintro c - u c' hu -
    match u with
    | 0 => exact Phase.noConfusion hu
    | u + 1 => exact Phase.noConfusion hu
  · rintro c hc u c' hu htx
    match u with
    | 0 =>
      cases hc
      cases hu
      exact absurd htx (by decide)
    | 1 => exact Phase.noConfusion hu
    | u + 2 => exact Phase.noConfusion hu

/-- A call for `b` draws the id of a call for `a` that polls. -/
def collidingCalls : List Op :=
  [.lookup 0 [97] 0, .prepare 0 7, .arm 0, .lookup 1 [98] 0, .prepare 1 7, .arm 1,
    .deliver (response 98 ⟨10, 0, 0, 2⟩), .poll 0 1, .disarm 0, .finish 0]

/-- The call for `a` returns and caches the address of `b`. -/
theorem collidingCalls_not_belong :
    (run step init collidingCalls).returned = [⟨[97], ⟨8, 8, 8, 8⟩, ⟨10, 0, 0, 2⟩⟩] ∧
      ¬ (run step init collidingCalls).AnswersBelong := by
  decide +kernel

end RobotOs.Net.Dns
