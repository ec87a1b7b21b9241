import Russignol.Signer.WireSafety

/-!
# Conversations

What one connection of a `SocketServer` is, byte by byte. The messages a client sent are answered in
the order they were sent, each by a response to it and none twice; what the client reads off the
stream it is sent is exactly these responses, however either stream is cut and wherever the
connection ends; and a thread that waits has answered every message that arrived whole
(`conversations`). That holds in every run, whatever the other connections do.

The two lists of keys that the codec does not read back are never sent.
-/

namespace Russignol

open Bytes Encoding Reader

/-! ## Messages that arrive -/

/-- A length that is let through is the one that was read. -/
theorem readMessageLength_ok {maxMessageSize msgLen : Nat} {lenBuf : Fixed 2}
    (h : readMessageLength maxMessageSize lenBuf = .ok msgLen) : msgLen = ofBe16 lenBuf := by
  unfold readMessageLength at h
  dsimp only at h
  split at h <;> cases h
  rfl

/-- A message that arrived whole is the next frame. -/
theorem arrival_message {maxMessageSize : Nat} {inbox msg rest : List UInt8}
    (h : arrival maxMessageSize inbox = .message msg rest) :
    inbox = messageHeader.frame msg ++ rest ∧ msg.length ≤ messageHeader.limit := by
  refine (messageHeader.readFrame_reads.run_ok_iff.1 ?_).symm
  unfold arrival at h
  split at h
  · cases h
  · rename_i lenBuf rest' hhead
    split at h
    · cases h
    · rename_i msgLen hlen
      split at h
      · cases h
      · rename_i body rest'' hbody
        cases h
        cases readMessageLength_ok hlen
        exact run_bind_ok.2 ⟨lenBuf, rest', hhead,
          run_bind_ok.2 ⟨body, rest, hbody, run_pure_ok.2 ⟨rfl, rfl⟩⟩⟩

/-- Where bytes are missing there is no frame yet. -/
theorem arrival_pending {maxMessageSize : Nat} {inbox : List UInt8}
    (h : arrival maxMessageSize inbox = .pending) : messageHeader.unframe inbox = ([], inbox) := by
  cases hrun : messageHeader.readFrame.run inbox with
  | error e => exact messageHeader.unframe_of_error hrun
  | ok p =>
    obtain ⟨msg, rest⟩ := p
    obtain ⟨lenBuf, mid, hhead, hrun⟩ := run_bind_ok.1 hrun
    obtain ⟨body, rest', hbody, -⟩ := run_bind_ok.1 hrun
    unfold arrival at h
    split at h
    · rename_i hhead'
      cases hhead'.symm.trans hhead
    · rename_i lenBuf' rest'' hhead'
      cases hhead'.symm.trans hhead
      split at h
      · cases h
      · rename_i msgLen hlen
        cases readMessageLength_ok hlen
        split at h
        · rename_i hbody'
          cases hbody'.symm.trans hbody
        · cases h

/-! ## Responses a client reads -/

section
variable [Blst] [LawfulBlst] [Bson] [LawfulBson]

/-- A response in kind whose encoding fits in a frame is read back by its request. -/
theorem decodeResponse_body {req : SignerRequest} {resp : SignerResponse} {body : List UInt8}
    (hfits : SocketConfig.Fits req resp) (hbody : encodeResponse resp = .ok body)
    (hlen : body.length ≤ 65535) : decodeResponse body req = .ok resp := by
  obtain ⟨hanswers, hauth⟩ := hfits
  by_cases herror : ∃ msg, resp = .error msg
  · obtain ⟨msg, rfl⟩ := herror
    change encodeError msg = .ok body at hbody
    cases hwritten : Bson.toWriter (errorDoc msg) with
    | error e =>
      simp only [encodeError, hwritten] at hbody
      cases hbody
    | ok bytes =>
      have hshort : bytes.length + 4 ≤ maxDataLen := by
        simp only [encodeError, hwritten, Except.mapError, bind, Except.bind] at hbody
        split at hbody
        · cases hbody
          simp only [List.length_append, be32_length, List.length_singleton] at hlen
          simp only [maxDataLen]
          omega
        · cases hbody
      cases (encodeError_eq hwritten hshort).symm.trans hbody
      exact decodeResponse_cons_error (decodeError_run hwritten hshort)
  · have hne : ∀ msg, resp ≠ .error msg := fun msg h => herror ⟨msg, h⟩
    have hlist : ∀ keys, resp = .knownKeys keys → keys.length * 21 < 2 ^ 32 := by
      rintro keys rfl
      by_contra hlong
      simp only [encodeResponse, encodePayload, encodePkhList, if_neg hlong] at hbody
      cases hbody
    obtain ⟨bytes, hbytes, hrun⟩ := decodePayload_run hanswers hne hauth hlist
    have hencode : encodeResponse resp = .ok (0x00 :: bytes) := by
      cases resp with
      | error msg => exact absurd rfl (hne msg)
      | _ =>
        simp only [encodeResponse, hbytes]
        rfl
    cases hencode.symm.trans hbody
    exact decodeResponse_cons_ok hrun

end

/-! ## One connection -/

section
variable [Blst] [Bson]

/-- The thread of a connection has not left its loop. -/
def Phase.Open : Phase → Prop
  | .spawned | .opening | .serving => True
  | .left | .closing | .closed | .ended => False

/-- A connection and what it was answered: the messages that were read are the requests, in order,
and the frames that were written are the responses. Only a thread that left its loop leaves part of
a frame behind. -/
structure Conversation (log : List (SignerRequest × SignerResponse)) (c : Conn) : Prop where
  requests : ∃ msgs, c.received = msgs.flatMap messageHeader.frame ++ c.inbox ∧
    (∀ m ∈ msgs, m.length ≤ messageHeader.limit) ∧
    List.Forall₂ (fun m qr => decodeRequest m = .ok qr.1) msgs log
  responses : ∃ bodies cut, messageHeader.unframe c.outbox = (bodies, cut) ∧
    List.Forall₂ (fun b qr => SocketConfig.Fits qr.1 qr.2 ∧ encodeResponse qr.2 = .ok b ∧
      b.length ≤ 65535) bodies log ∧
    (c.phase.Open → cut = [])

namespace Conversation

variable {log : List (SignerRequest × SignerResponse)} {c : Conn}

/-- A connection that was just taken. -/
theorem start (generation : Nat) : Conversation [] ⟨generation, .spawned, [], [], []⟩ :=
  ⟨⟨[], rfl, fun _ h => absurd h List.not_mem_nil, .nil⟩,
    ⟨[], [], messageHeader.unframe_nil, .nil, fun _ => rfl⟩⟩

/-- The thread moves on, and does not come back to its loop. -/
theorem move (h : Conversation log c) {q : Phase} (hq : q.Open → c.phase.Open) :
    Conversation log { c with phase := q } := by
  obtain ⟨bodies, cut, hframes, hlog, hcut⟩ := h.responses
  exact ⟨h.requests, ⟨bodies, cut, hframes, hlog, fun hopen => hcut (hq hopen)⟩⟩

/-- Bytes arrive. -/
theorem receive (h : Conversation log c) (bytes : List UInt8) :
    Conversation log
      { c with received := c.received ++ bytes, inbox := c.inbox ++ bytes } := by
  obtain ⟨msgs, hreceived, hmsgs, hlog⟩ := h.requests
  exact ⟨⟨msgs, by rw [hreceived, List.append_assoc], hmsgs, hlog⟩, h.responses⟩

/-- The thread gives up in the middle of a response. -/
theorem giveUp (h : Conversation log c) (hopen : c.phase.Open) {cut : List UInt8}
    (hcut : messageHeader.unframe cut = ([], cut)) :
    Conversation log { c with phase := .left, outbox := c.outbox ++ cut } := by
  obtain ⟨bodies, cut', hframes, hlog, hnone⟩ := h.responses
  rw [hnone hopen] at hframes
  refine ⟨h.requests, ⟨bodies, cut, ?_, hlog, False.elim⟩⟩
  rw [messageHeader.unframe_append, hframes, List.nil_append, hcut, List.append_nil]

/-- A message is answered. -/
theorem answer (h : Conversation log c) (hopen : c.phase.Open) {maxMessageSize : Nat}
    {msg rest body : List UInt8} {req : SignerRequest} {resp : SignerResponse}
    (harrival : arrival maxMessageSize c.inbox = .message msg rest)
    (hreq : decodeRequest msg = .ok req) (hfits : SocketConfig.Fits req resp)
    (hbody : encodeResponse resp = .ok body) (hlen : body.length ≤ 65535) :
    Conversation (log ++ [(req, resp)])
      { c with inbox := rest, outbox := c.outbox ++ messageHeader.frame body } := by
  obtain ⟨msgs, hreceived, hmsgs, hlog⟩ := h.requests
  obtain ⟨bodies, cut, hframes, hlog', hnone⟩ := h.responses
  obtain ⟨hinbox, hmsg⟩ := arrival_message harrival
  rw [hnone hopen] at hframes
  have hone : messageHeader.unframe (messageHeader.frame body) = ([body], []) := by
    have hframe := messageHeader.unframe_frame hlen []
    rwa [List.append_nil, messageHeader.unframe_nil] at hframe
  refine ⟨⟨msgs ++ [msg], ?_, ?_, ?_⟩, ⟨bodies ++ [body], [], ?_, ?_, fun _ => rfl⟩⟩
  · rw [hreceived, hinbox, List.flatMap_append, List.flatMap_singleton, List.append_assoc]
  · exact List.forall_mem_append.2 ⟨hmsgs, fun m hm => List.mem_singleton.1 hm ▸ hmsg⟩
  · exact List.rel_append hlog (.cons hreq .nil)
  · rw [messageHeader.unframe_append, hframes, List.nil_append, hone]
  · exact List.rel_append hlog' (.cons ⟨hfits, hbody, hlen⟩ .nil)

end Conversation

/-! ## Every connection -/

namespace SocketServer

variable {s s' : SocketServer}

/-- Every connection is a conversation, and only connections were answered. -/
structure Talks (s : SocketServer) : Prop where
  known : ∀ p ∈ s.transcript, p.1 < s.conns.length
  conn : ∀ i c, s.conns[i]? = some c → Conversation (s.answers i) c

omit [Bson] in
/-- An answer is the last of its connection. -/
theorem answers_cons (s : SocketServer) (i j : Nat) (qr : SignerRequest × SignerResponse) :
    answers { s with transcript := (i, qr) :: s.transcript } j =
      if i = j then s.answers j ++ [qr] else s.answers j := by
  unfold answers
  by_cases h : i = j
  · rw [if_pos h, List.filter_cons_of_pos (by simpa using h), List.reverse_cons, List.map_append]
    rfl
  · rw [if_neg h, List.filter_cons_of_neg (by simpa using h)]

omit [Bson] in
/-- Nothing was answered to a connection that is not there yet. -/
theorem answers_new (hknown : ∀ p ∈ s.transcript, p.1 < s.conns.length) :
    s.answers s.conns.length = [] := by
  have hnone : s.transcript.filter (·.1 = s.conns.length) = [] := by
    refine List.filter_eq_nil_iff.2 fun p hp => ?_
    have hlt := hknown p hp
    simp only [decide_eq_true_eq]
    omega
  rw [answers, hnone]
  rfl

/-- A connection changes, and its answers do not. -/
theorem Talks.set (h : s.Talks) {i : Nat} {c' : Conn} (hc' : Conversation (s.answers i) c')
    (hconns : s'.conns = s.conns.set i c') (htranscript : s'.transcript = s.transcript) :
    s'.Talks := by
  have hanswers : ∀ j, s'.answers j = s.answers j := fun j => by rw [answers, answers, htranscript]
  refine ⟨fun p hp => ?_, fun j c hc => ?_⟩
  · rw [hconns, List.length_set]
    exact h.known p (htranscript ▸ hp)
  · rw [hconns, List.getElem?_set] at hc
    rw [hanswers]
    split at hc
    · rename_i hij
      split at hc
      · cases hc
        exact hij ▸ hc'
      · cases hc
    · exact h.conn j c hc

/-- A thread moves on. -/
theorem Talks.move (h : s.Talks) {i : Nat} {p q : Phase} (hmove : s.move i p q = some s')
    (hopen : q.Open → p.Open) : s'.Talks := by
  obtain ⟨c, hc, rfl, rfl⟩ := move_spec hmove
  exact h.set ((h.conn i c hc).move hopen) rfl rfl

variable [Blake3] [Base58] [BlsKeys] {cfg : SocketConfig}

/-- A round of the loop. -/
theorem Talks.served (h : s.Talks) {i : Nat} {c : Conn} {io : RequestIo cfg.keys}
    (hc : s.conns[i]? = some c) (hphase : c.phase = .serving) (hserved : Served cfg io s i c s') :
    s'.Talks := by
  have hopen : c.phase.Open := hphase ▸ trivial
  have hconv := h.conn i c hc
  cases hserved with
  | refused e => exact h.set (hconv.move False.elim) rfl rfl
  | unanswered d cut _ hcut => exact h.set (hconv.giveUp hopen hcut) rfl rfl
  | answered msg rest body d req resp harrival hreq hfits hbody hlen =>
    have hconv' := hconv.answer hopen harrival hreq hfits hbody hlen
    have hi : i < s.conns.length := (List.getElem?_eq_some_iff.1 hc).1
    refine ⟨fun p hp => ?_, fun j c' hc' => ?_⟩
    · rw [List.length_set]
      rcases List.mem_cons.1 hp with rfl | hp
      · exact hi
      · exact h.known p hp
    · have hanswers : answers _ j = _ := answers_cons s i j (req, resp)
      dsimp only at hc'
      rw [List.getElem?_set] at hc'
      by_cases hij : i = j
      · subst hij
        rw [if_pos rfl, if_pos hi] at hc'
        cases hc'
        rw [if_pos rfl] at hanswers
        exact hanswers ▸ hconv'
      · rw [if_neg hij] at hc' hanswers
        exact hanswers ▸ h.conn j c' hc'

/-- **One event** leaves conversations. -/
theorem Talks.step (h : s.Talks) {e : SocketEvent cfg} (hstep : s.step cfg e = some s') :
    s'.Talks := by
  cases e with
  | accept =>
    obtain ⟨wm, -, hstep⟩ := Option.map_eq_some_iff.1 hstep
    split at hstep
    · cases hstep
      exact h
    · cases hstep
      refine ⟨fun p hp => ?_, fun i c hc => ?_⟩
      · rw [List.length_append]
        exact (h.known p hp).trans_le (Nat.le_add_right _ _)
      · dsimp only at hc
        rcases Nat.lt_trichotomy i s.conns.length with hi | rfl | hi
        · rw [List.getElem?_append_left hi] at hc
          exact h.conn i c hc
        · rw [List.getElem?_concat_length] at hc
          cases hc
          have hnew : s.answers s.conns.length = [] := answers_new h.known
          show Conversation (s.answers s.conns.length) _
          rw [hnew]
          exact .start _
        · rw [List.getElem?_eq_none (by rw [List.length_append]; exact hi)] at hc
          cases hc
  | acceptFailed =>
    cases hstep
    exact ⟨h.known, h.conn⟩
  | configure i ok => exact h.move hstep fun _ => trivial
  | opened i => exact h.move hstep fun _ => trivial
  | hangUp i => exact h.move hstep fun _ => trivial
  | complete i => exact h.move hstep False.elim
  | completed i => exact h.move hstep False.elim
  | receive i bytes =>
    obtain ⟨c, hc, rfl⟩ := Option.map_eq_some_iff.1 hstep
    exact h.set ((h.conn i c hc).receive bytes) rfl rfl
  | serve i io =>
    obtain ⟨c, hc, hstep⟩ := Option.bind_eq_some_iff.1 hstep
    obtain ⟨wm, hproc, hstep⟩ := Option.bind_eq_some_iff.1 hstep
    split at hstep
    · rename_i hphase
      exact h.served hc hphase (serve_spec hproc hstep)
    · cases hstep
  | drop i =>
    obtain ⟨c, hc, hphase, rfl⟩ := dropGuard_spec hstep
    exact h.set ((h.conn i c hc).move (q := .ended) False.elim) rfl rfl
  | fire | confirm =>
    obtain ⟨d, -, rfl⟩ := Option.map_eq_some_iff.1 hstep
    exact ⟨h.known, h.conn⟩
  | restart io =>
    rw [SocketServer.step, Option.map_eq_some_iff] at hstep
    obtain ⟨d, -, rfl⟩ := hstep
    refine ⟨fun p hp => ?_, fun i c hc => ?_⟩
    · rw [List.length_map]
      exact h.known p hp
    · dsimp only at hc
      rw [List.getElem?_map, Option.map_eq_some_iff] at hc
      obtain ⟨c, hc, rfl⟩ := hc
      exact (h.conn i c hc).move (q := .ended) False.elim

/-- **Conversations.** In every run of a server, on every connection: the messages a client sent
were answered in their order, and where the thread waits for bytes, all that arrived whole were;
what the client reads off the stream it was sent is the responses to them, in the same order, each
decoded by its request; and only a thread that left its loop leaves part of a frame. -/
theorem conversations [LawfulBlst] [LawfulBson] (cfg : SocketConfig) (d : Device)
    (events : List (SocketEvent cfg)) (s : SocketServer)
    (hrun : Automaton.run (SocketServer.step cfg) (start d) events = some s) (i : Nat) (c : Conn)
    (hc : s.conns[i]? = some c) :
    ∃ msgs unread bodies cut,
      (messageHeader.unframe c.received).1 = msgs ++ unread ∧
      (arrival cfg.maxMessageSize c.inbox = .pending → unread = []) ∧
      List.Forall₂ (fun m qr => decodeRequest m = .ok qr.1) msgs (s.answers i) ∧
      messageHeader.unframe c.outbox = (bodies, cut) ∧ (c.phase.Open → cut = []) ∧
      List.Forall₂ (fun b qr => decodeResponse b qr.1 = .ok qr.2) bodies (s.answers i) := by
  have hstart : (start d).Talks :=
    ⟨fun p hp => absurd hp List.not_mem_nil, fun i c hc => by cases hc⟩
  have hkeep : ∀ (a : SocketServer) (e : SocketEvent cfg) (b : SocketServer), a.Talks → True →
      SocketServer.step cfg a e = some b → b.Talks := fun _ _ _ htalks _ hstep => htalks.step hstep
  have htalks : s.Talks :=
    Automaton.run_invariant hkeep hstart (Automaton.along_of_forall _ fun _ _ => trivial) hrun
  obtain ⟨⟨msgs, hreceived, hmsgs, hlog⟩, ⟨bodies, cut, hframes, hlog', hcut⟩⟩ := htalks.conn i c hc
  refine ⟨msgs, (messageHeader.unframe c.inbox).1, bodies, cut, ?_, fun hpending => ?_, hlog,
    hframes, hcut, ?_⟩
  · rw [hreceived, messageHeader.unframe_frames _ hmsgs]
  · rw [arrival_pending hpending]
  · exact hlog'.imp fun _ _ ⟨hfits, hbody, hlen⟩ => decodeResponse_body hfits hbody hlen

end SocketServer

end

section
attribute [local instance] plainBlake3 plainBase58 plainBlst plainBlst_lawful plainBlsKeys plainBson
  plainBson_lawful

/-- The second of two clients was refused once and signed for once. -/
theorem conversations_twoClients : ∃ s c,
    Automaton.run (SocketServer.step testSocketConfig)
        (.start (.boot testSocketConfig.card LoadIo.quiet (testDisk [testKey 1] 100) []))
        twoClients = some s ∧
      s.conns[1]? = some c ∧ (messageHeader.unframe c.outbox).1.length = 2 := by
  have hserved : (Automaton.run (SocketServer.step testSocketConfig)
      (.start (.boot testSocketConfig.card LoadIo.quiet (testDisk [testKey 1] 100) []))
      twoClients).bind (fun s => s.conns[1]?.map fun _ => (s.answers 1).length) = some 2 := by
    decide +kernel
  obtain ⟨s, hrun, hserved⟩ := Option.bind_eq_some_iff.1 hserved
  obtain ⟨c, hc, hlen⟩ := Option.map_eq_some_iff.1 hserved
  obtain ⟨_, _, bodies, cut, -, -, -, hframes, -, hbodies⟩ :=
    SocketServer.conversations testSocketConfig _ twoClients s hrun 1 c hc
  refine ⟨s, c, hrun, hc, ?_⟩
  rw [hframes, hbodies.length_eq, hlen]

end

end Russignol
