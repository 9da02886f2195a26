import WebhookDelivery.Proofs.Outcomes

/-!
# WebhookDelivery.Proofs.Truncation

How much of a body is read, and how much of it is kept.

* `Exchange.Reaches`: pieces bring a body to the limit; `Exchange.Fills`: the piece that does it.
* `Exchange.isReadThrough_of_complete`: a body that is complete was read up to that piece;
  `Exchange.readBody_fills`: reading does not look behind it.
* `Engine.Blind`: what is done without asking for a reply.
* `Client.bodies_are_cut_at_the_limit`: what is kept of a body in an exchange and in a response, and
  when reading stops.
-/

namespace WebhookDelivery

/-! ## Pieces -/

namespace Exchange

open Chunk

variable {limit : Nat} {allowed : Allowance}

/-- There is a piece that is not empty and with which the pieces are as long as the limit. -/
def Reaches (limit : Nat) (chunks : List Chunk) : Prop :=
  ∃ read bytes rest, chunks = read ++ .data bytes :: rest ∧ bytes ≠ [] ∧
    limit ≤ (dataOf read ++ bytes).length

/-- After the pieces that were read, `bytes` is the first piece of that kind. -/
structure Fills (limit : Nat) (read : List Chunk) (bytes : Bytes) : Prop where
  nonempty : bytes ≠ []
  reaches : limit ≤ (dataOf read ++ bytes).length
  first : ¬ Reaches limit read

theorem dataOf_append_data (read : List Chunk) (bytes : Bytes) (rest : List Chunk) :
    dataOf (read ++ .data bytes :: rest) = dataOf read ++ bytes ++ dataOf rest := by
  rw [dataOf_append, append_dataOf_cons]
  rfl

theorem Reaches.append {first : List Chunk} (h : Reaches limit first) (second : List Chunk) :
    Reaches limit (first ++ second) := by
  obtain ⟨read, bytes, rest, rfl, hreaches⟩ := h
  exact ⟨read, bytes, rest ++ second, by simp, hreaches⟩

/-- Pieces that do not reach the limit are those that leave a body open. -/
theorem not_reaches_iff {chunks : List Chunk} :
    ¬ Reaches limit chunks ↔ IsOpen limit (dataOf chunks) := by
  constructor
  · -- the last piece that is not empty would be the one that reaches it
    induction chunks using List.reverseRecOn with
    | nil => exact fun _ => .inl rfl
    | append_singleton before c ih =>
      intro hnot
      by_cases hne : c.bytes = []
      · have hdata : dataOf (before ++ [c]) = dataOf before := by
          rw [dataOf_append]
          simp [dataOf, hne]
        rw [hdata]
        exact ih fun hbefore => hnot (hbefore.append [c])
      · cases c with
        | data bytes =>
          have hdata : dataOf (before ++ [.data bytes]) = dataOf before ++ bytes :=
            (dataOf_append_data before bytes []).trans (List.append_nil _)
          rw [hdata]
          exact (isOpen_append hne).2 fun hfull => hnot ⟨before, bytes, [], rfl, hne, hfull⟩
        | delay micros => exact absurd rfl hne
        | fault f => exact absurd rfl hne
  · rintro hopen ⟨read, bytes, rest, rfl, hne, hfull⟩
    rw [dataOf_append_data] at hopen
    exact (isOpen_append hne).1 hopen.of_append hfull

theorem Fills.isOpen {read : List Chunk} {bytes : Bytes} (h : Fills limit read bytes) :
    IsOpen limit (dataOf read) :=
  not_reaches_iff.1 h.first

/-- What is kept up to the piece that fills a body is what is kept of all pieces. -/
theorem Fills.take_dataOf {read : List Chunk} {bytes : Bytes} (h : Fills limit read bytes)
    (rest : List Chunk) :
    (dataOf (read ++ .data bytes :: rest)).take limit = (dataOf read ++ bytes).take limit := by
  rw [dataOf_append_data, List.take_append_of_le_length h.reaches]

theorem IsOpen.take_eq {body : Bytes} (h : IsOpen limit body) : body.take limit = body :=
  List.take_of_length_le h.length_le

/-- Pieces that reach the limit do so first with one of them. -/
theorem Reaches.exists_fills {chunks : List Chunk} (h : Reaches limit chunks) :
    ∃ read bytes rest, chunks = read ++ .data bytes :: rest ∧ Fills limit read bytes := by
  induction chunks using List.reverseRecOn with
  | nil =>
    obtain ⟨read, bytes, rest, hchunks, -⟩ := h
    simp at hchunks
  | append_singleton before c ih =>
    by_cases hbefore : Reaches limit before
    · obtain ⟨read, bytes, rest, rfl, hfills⟩ := ih hbefore
      exact ⟨read, bytes, rest ++ [c], by simp, hfills⟩
    · obtain ⟨read, bytes, rest, hchunks, hne, hfull⟩ := h
      rcases List.eq_nil_or_concat rest with rfl | ⟨rest, d, rfl⟩
      · obtain ⟨rfl, -⟩ := List.append_inj' hchunks rfl
        exact ⟨before, bytes, [], hchunks, hne, hfull, hbefore⟩
      · have hsplit : before ++ [c] = read ++ .data bytes :: rest ++ [d] := by
          rw [hchunks, List.concat_eq_append, List.append_assoc, List.cons_append]
        obtain ⟨rfl, -⟩ := List.append_inj' hsplit rfl
        exact absurd ⟨read, bytes, rest, rfl, hne, hfull⟩ hbefore

/-! ## Reading -/

/-- If reading is complete, nothing has ended it among pieces that leave the body open. -/
theorem isReadThrough_of_complete {read rest : List Chunk} {body full : Bytes} {elapsed : Int}
    {count : Nat} (ho : IsOpen limit (body ++ dataOf read)) (ht : exceeds allowed elapsed = false)
    (h : (readBody limit allowed body elapsed count (read ++ rest)).result = .complete full) :
    IsReadThrough limit allowed body elapsed read := by
  induction read generalizing body elapsed count with
  | nil => exact isReadThrough_nil ho.of_append ht
  | cons c read ih =>
    rw [append_dataOf_cons] at ho
    have hquiet : c.isFault = false := by
      cases c with
      | fault f => cases h
      | _ => rfl
    have hnext : exceeds allowed (elapsed + c.micros) = false := by
      cases c with
      | delay micros =>
        cases hlate : exceeds allowed (elapsed + micros) with
        | false => exact hlate
        | true =>
          rw [List.cons_append, readBody, if_pos hlate] at h
          cases h
      | _ => simpa [Chunk.micros] using ht
    rw [List.cons_append, readBody_cons hquiet hnext ho.of_append] at h
    exact isReadThrough_cons.2 ⟨hquiet, ht, ih ho hnext h⟩

/-- Reading does not look behind the piece that fills the body, also where it does not get there. -/
theorem readBody_fills {read : List Chunk} {body bytes : Bytes}
    (ho : IsOpen limit (body ++ dataOf read)) (hne : bytes ≠ [])
    (hfull : limit ≤ (body ++ dataOf read ++ bytes).length) (elapsed : Int) (count : Nat)
    (rest later : List Chunk) :
    readBody limit allowed body elapsed count (read ++ .data bytes :: later) =
      readBody limit allowed body elapsed count (read ++ .data bytes :: rest) := by
  induction read generalizing body elapsed count with
  | nil =>
    rw [dataOf, List.flatMap_nil, List.append_nil] at ho hfull
    rw [List.nil_append, List.nil_append, readBody_data ho hne, readBody_data ho hne,
      if_pos hfull, if_pos hfull]
  | cons c read ih =>
    rw [append_dataOf_cons] at ho hfull
    have hnext := fun elapsed count => ih ho hfull elapsed count
    rw [List.cons_append, List.cons_append]
    cases c with
    | fault f => rfl
    | delay micros =>
      simp only [Chunk.bytes, List.append_nil] at hnext
      rw [readBody, readBody, hnext]
    | data new =>
      have hopen : IsOpen limit (body ++ new) := ho.of_append
      rw [readBody_data_open hopen, readBody_data_open hopen]
      exact hnext elapsed (count + 1)

/-- An exchange that is complete after it has read pieces of a body, from the time the reply took. -/
def completedBy (takes : Int) (pieces : List Chunk) (body : Bytes) : Exchange :=
  ⟨.complete body, takes + durationOf pieces, piecesOf pieces⟩

end Exchange

/-! ## Replies -/

namespace Reply

open Exchange Chunk

variable {limit : Nat} {allowed : Allowance} {r : Reply}

/-- The reply comes, and the pieces are read one after another in time. -/
def Brings (r : Reply) (limit : Nat) (allowed : Allowance) (read : List Chunk) : Prop :=
  r.fault = none ∧ IsReadThrough limit allowed [] r.takes read

theorem timely_of_complete {body : Bytes}
    (h : (ofReply limit allowed r).result = .complete body) :
    r.fault = none ∧ ofReply limit allowed r = readBody limit allowed [] r.takes 0 r.chunks ∧
      exceeds allowed r.takes = false := by
  unfold ofReply at h ⊢
  cases ht : exceeds allowed r.takes with
  | true =>
    rw [if_pos ht] at h
    cases h
  | false =>
    rw [if_neg (by simp [ht])] at h ⊢
    cases hf : r.fault with
    | some f =>
      rw [hf] at h
      cases h
    | none => exact ⟨rfl, rfl, rfl⟩

theorem brings_of_complete {read rest : List Chunk} {body : Bytes}
    (hchunks : r.chunks = read ++ rest) (ho : IsOpen limit (dataOf read))
    (h : (ofReply limit allowed r).result = .complete body) : r.Brings limit allowed read := by
  obtain ⟨hf, hr, ht⟩ := timely_of_complete h
  rw [hr, hchunks] at h
  exact ⟨hf, isReadThrough_of_complete ho ht h⟩

theorem Brings.ofReply_eq {read rest : List Chunk} (h : r.Brings limit allowed read)
    (hchunks : r.chunks = read ++ rest) : ofReply limit allowed r =
      readBody limit allowed (dataOf read) (r.takes + durationOf read) (piecesOf read) rest := by
  have ht : exceeds allowed r.takes = false := by
    simpa [durationOf] using h.2.timely [] List.nil_prefix
  rw [ofReply, if_neg (by simp [ht]), h.1, hchunks]
  dsimp only
  rw [readBody_append h.2, List.nil_append, Nat.zero_add]

/-- Where an exchange is complete with certain pieces, it is complete exactly if they are brought. -/
theorem complete_iff_brings {read rest pieces : List Chunk} {kept : Bytes}
    (hchunks : r.chunks = read ++ rest) (ho : IsOpen limit (dataOf read))
    (h : r.Brings limit allowed read →
      ofReply limit allowed r = completedBy r.takes pieces kept) :
    (∃ body, (ofReply limit allowed r).result = .complete body) ↔
      r.Brings limit allowed read := by
  constructor
  · rintro ⟨body, hcomplete⟩
    exact brings_of_complete hchunks ho hcomplete
  · exact fun hread => ⟨kept, congrArg result (h hread)⟩

/-- A body that reaches the limit is complete with the piece that fills it. -/
theorem ofReply_of_fills (allowed : Allowance) {read rest : List Chunk} {bytes : Bytes}
    (hchunks : r.chunks = read ++ .data bytes :: rest) (hf : Fills limit read bytes) :
    ((∃ body, (ofReply limit allowed r).result = .complete body) ↔ r.Brings limit allowed read) ∧
    (r.Brings limit allowed read → ofReply limit allowed r =
      completedBy r.takes (read ++ [.data bytes]) ((dataOf r.chunks).take limit)) := by
  have hstop : r.Brings limit allowed read → ofReply limit allowed r =
      completedBy r.takes (read ++ [.data bytes]) ((dataOf r.chunks).take limit) := by
    intro hread
    rw [hread.ofReply_eq hchunks, readBody_data hf.isOpen hf.nonempty, if_pos hf.reaches,
      hchunks, hf.take_dataOf]
    simp [completedBy, durationOf, piecesOf, isData, Chunk.micros]
  exact ⟨complete_iff_brings hchunks hf.isOpen hstop, hstop⟩

/-- A body that does not reach the limit is complete with all its pieces. -/
theorem ofReply_of_not_reaches (allowed : Allowance) (hopen : ¬ Reaches limit r.chunks) :
    ((∃ body, (ofReply limit allowed r).result = .complete body) ↔
      r.Brings limit allowed r.chunks) ∧
    (r.Brings limit allowed r.chunks → ofReply limit allowed r =
      completedBy r.takes r.chunks ((dataOf r.chunks).take limit)) := by
  have hbody := not_reaches_iff.1 hopen
  have hchunks : r.chunks = r.chunks ++ [] := (List.append_nil _).symm
  have hall : r.Brings limit allowed r.chunks → ofReply limit allowed r =
      completedBy r.takes r.chunks ((dataOf r.chunks).take limit) := by
    intro hread
    rw [hread.ofReply_eq hchunks, hbody.take_eq]
    rfl
  exact ⟨complete_iff_brings hchunks hbody hall, hall⟩

/-- What is kept of a complete body. -/
theorem eq_take_of_complete {body : Bytes}
    (h : (ofReply limit allowed r).result = .complete body) :
    body = (dataOf r.chunks).take limit := by
  have heq : ∃ pieces, ofReply limit allowed r =
      completedBy r.takes pieces ((dataOf r.chunks).take limit) := by
    by_cases hreaches : Reaches limit r.chunks
    · obtain ⟨read, bytes, rest, hchunks, hfills⟩ := hreaches.exists_fills
      obtain ⟨hcomplete, hstop⟩ := ofReply_of_fills allowed hchunks hfills
      exact ⟨_, hstop (hcomplete.1 ⟨body, h⟩)⟩
    · obtain ⟨hcomplete, hall⟩ := ofReply_of_not_reaches allowed hreaches
      exact ⟨_, hall (hcomplete.1 ⟨body, h⟩)⟩
  obtain ⟨pieces, heq⟩ := heq
  rw [heq] at h
  cases h
  rfl

/-- An exchange is the same whatever comes after the piece that fills the body. -/
theorem ofReply_later {read rest : List Chunk} {bytes : Bytes}
    (hchunks : r.chunks = read ++ .data bytes :: rest) (hf : Fills limit read bytes)
    (later : List Chunk) :
    ofReply limit allowed { r with chunks := read ++ .data bytes :: later } =
      ofReply limit allowed r := by
  have hread : readBody limit allowed [] r.takes 0 (read ++ .data bytes :: later) =
      readBody limit allowed [] r.takes 0 (read ++ .data bytes :: rest) :=
    readBody_fills hf.isOpen hf.nonempty hf.reaches r.takes 0 rest later
  unfold ofReply
  rw [hchunks]
  dsimp only
  rw [hread]

end Reply

/-! ## Executions -/

/-- The world with other replies of the receiver. -/
def World.scripted (w : World) (replies : List Reply) : World :=
  { w with network := { w.network with replies := replies } }

/-- An operation that does the same whatever the receiver would reply. -/
def Engine.Blind {α : Type} (body : Engine α) : Prop :=
  ∀ w replies, body (w.scripted replies) = ((body w).1, (body w).2.scripted replies)

namespace Client

open Engine Exchange Chunk

theorem blind_conclude (fields : LogFields) (start : Int) (a : Attempt) (x : Reply × Exchange) :
    Blind (conclude fields start a x) := by
  unfold conclude
  split
  all_goals exact fun _ _ => rfl

theorem blind_proceed {check : TargetCheck} (h : check ≠ .allowed) (settings : WorkerSettings)
    (fields : LogFields) (start : Int) (a : Attempt) (e : Event) (s : Subscription) (now : Int) :
    Blind (proceed settings fields start a e s now check) := by
  cases check with
  | allowed => exact absurd rfl h
  | _ => exact fun _ _ => rfl

/-- An exchange comes to what it does with the next reply, and leaves a world that depends on that
alone. -/
theorem exchange_apply (settings : WorkerSettings) (method url : String) (headers : HeaderBlock)
    (body : Bytes) : ∃ left : Exchange → World → World,
    (∀ x w replies, left x (w.scripted replies) = (left x w).scripted replies) ∧
    ∀ w, exchange settings method url headers body w =
      (.ok (w.network.nextReply,
        ofReply settings.bodyLimit settings.allowance w.network.nextReply),
        left (ofReply settings.bodyLimit settings.allowance w.network.nextReply) w) :=
  ⟨fun x w => { w with
      clock := w.clock + x.elapsed, elapsed := w.elapsed + x.elapsed,
      network := { w.network with
        requests := w.network.requests ++ [⟨method, url, headers, body, x.chunksRead⟩] } },
    fun _ _ _ => rfl, fun _ => rfl⟩

theorem deliver_apply {settings : WorkerSettings} {e : Event} {s : Subscription} {now : Int}
    {headers : HeaderBlock}
    (h : outboundHeaders settings e s (ClockTime.unixSeconds now) = .ok headers)
    (fields : LogFields) (start : Int) (a : Attempt) : ∃ left : Exchange → World → World,
    (∀ x w replies, left x (w.scripted replies) = (left x w).scripted replies) ∧
    ∀ w, deliver settings fields start a e s now w = conclude fields start a
      (w.network.nextReply,
        ofReply settings.bodyLimit settings.allowance w.network.nextReply)
      (left (ofReply settings.bodyLimit settings.allowance w.network.nextReply) w) := by
  obtain ⟨left, hleft, hexchange⟩ :=
    exchange_apply settings s.target.method s.target.url headers e.payload
  refine ⟨left, hleft, fun w => ?_⟩
  rw [deliver_eq, h]
  change (exchange settings s.target.method s.target.url headers e.payload >>=
    conclude fields start a) w = _
  rw [bind_apply, hexchange]

theorem execute_proceed (settings : WorkerSettings) (a : Attempt) (e : Event) (s : Subscription)
    (now : Int) : ∃ fields, ∀ w, execute settings a e s now w =
      proceed settings fields w.elapsed a e s now
        (w.network.checkTarget (!settings.disableTargetCheck) s.target.url).1
        (checkTarget settings s.target.url w).2 := by
  obtain ⟨fields, heq⟩ := execute_eq settings a e s now
  refine ⟨fields, fun w => ?_⟩
  rw [heq]
  rfl

variable {settings : WorkerSettings} {a : Attempt} {e : Event} {s : Subscription} {now : Int}
  {w : World} {replies : List Reply}

/-- A body that is complete is in the response, if a request was sent at all. -/
theorem execute_of_complete {headers : HeaderBlock} {body : Bytes}
    (hallowed : (w.network.checkTarget (!settings.disableTargetCheck)
      s.target.url).1 = .allowed)
    (hheaders : outboundHeaders settings e s (ClockTime.unixSeconds now) = .ok headers)
    (h : (ofReply settings.bodyLimit settings.allowance w.network.nextReply).result =
      .complete body) :
    ∃ r, (execute settings a e s now w).1 = .ok r ∧
      r.body = some (String.ofList (Text.utf8Lossy body)) := by
  obtain ⟨fields, hproceed⟩ := execute_proceed settings a e s now
  obtain ⟨left, -, hdeliver⟩ := deliver_apply hheaders fields w.elapsed a
  have hreply : (checkTarget settings s.target.url w).2.network.nextReply = w.network.nextReply :=
    rfl
  rw [hproceed, hallowed, proceed, hdeliver, hreply, conclude, h]
  exact ⟨_, rfl, rfl⟩

/-- The next reply of another script differs in its pieces, and the exchange with it does not. -/
structure SameExchange (settings : WorkerSettings) (w : World) (replies : List Reply) : Prop where
  reply : ∃ later, (w.scripted replies).network.nextReply =
    { w.network.nextReply with chunks := later }
  exchange : ofReply settings.bodyLimit settings.allowance (w.scripted replies).network.nextReply =
    ofReply settings.bodyLimit settings.allowance w.network.nextReply

theorem deliver_scripted (h : SameExchange settings w replies) (fields : LogFields) (start : Int) :
    deliver settings fields start a e s now (w.scripted replies) =
      ((deliver settings fields start a e s now w).1,
        (deliver settings fields start a e s now w).2.scripted replies) := by
  obtain ⟨⟨later, hreply⟩, hx⟩ := h
  cases hheaders : outboundHeaders settings e s (ClockTime.unixSeconds now) with
  | error error =>
    rw [deliver_eq, hheaders]
    rfl
  | ok headers =>
    obtain ⟨left, hleft, hdeliver⟩ := deliver_apply hheaders fields start a
    rw [hdeliver, hdeliver, hx, hleft, hreply]
    exact blind_conclude fields start a (w.network.nextReply, _) _ replies

/-- With the same exchange an execution is the same. -/
theorem execute_scripted (h : SameExchange settings w replies) :
    execute settings a e s now (w.scripted replies) =
      ((execute settings a e s now w).1, (execute settings a e s now w).2.scripted replies) := by
  obtain ⟨fields, hproceed⟩ := execute_proceed settings a e s now
  have hchecked : (checkTarget settings s.target.url (w.scripted replies)).2 =
      (checkTarget settings s.target.url w).2.scripted replies := rfl
  have hcheck (checkAddresses : Bool) (url : String) :
      (w.scripted replies).network.checkTarget checkAddresses url =
        w.network.checkTarget checkAddresses url := rfl
  have hsame : SameExchange settings (checkTarget settings s.target.url w).2 replies :=
    ⟨h.reply, h.exchange⟩
  rw [hproceed, hproceed, hchecked, hcheck]
  by_cases hallowed : (w.network.checkTarget (!settings.disableTargetCheck)
      s.target.url).1 = .allowed
  · rw [hallowed]
    exact deliver_scripted hsame fields w.elapsed
  · exact blind_proceed hallowed settings fields w.elapsed a e s now _ replies

/-- Truncation is exact, and reading stops early. For every limit, every sequence of pieces with
delays and faults between them and every script of further replies: what is kept of a body that is
complete, and what a response tells of it, is cut to the limit. Reading ends with the first piece
that is not empty and reaches the limit, if nothing before it ends it, and an execution is the same
whatever comes after that piece. If there is no such piece, all pieces are read. -/
theorem bodies_are_cut_at_the_limit {limit : Nat} (hlimit : settings.maxBodyBytes = limit)
    (a : Attempt) (e : Event) (s : Subscription) (now : Int) (w : World) :
    let reply := w.network.nextReply
    let x := ofReply settings.bodyLimit settings.allowance reply
    let kept := (dataOf reply.chunks).take limit
    (∀ body, x.result = .complete body →
      body = kept ∧ body.length = min limit (dataOf reply.chunks).length ∧
      ((w.network.checkTarget (!settings.disableTargetCheck) s.target.url).1 =
          .allowed →
        ∀ headers, outboundHeaders settings e s (ClockTime.unixSeconds now) = .ok headers →
          ∃ r, (execute settings a e s now w).1 = .ok r ∧
            r.body = some (String.ofList (Text.utf8Lossy kept)))) ∧
    (∀ r text, (execute settings a e s now w).1 = .ok r → r.body = some text →
      text = String.ofList (Text.utf8Lossy kept)) ∧
    (∀ read bytes rest, reply.chunks = read ++ .data bytes :: rest → Fills limit read bytes →
      ((∃ body, x.result = .complete body) ↔ reply.Brings limit settings.allowance read) ∧
      (reply.Brings limit settings.allowance read →
        x = completedBy reply.takes (read ++ [.data bytes]) kept) ∧
      ∀ replies later, (w.scripted replies).network.nextReply =
          { reply with chunks := read ++ .data bytes :: later } →
        execute settings a e s now (w.scripted replies) =
          ((execute settings a e s now w).1, (execute settings a e s now w).2.scripted replies)) ∧
    (¬ Reaches limit reply.chunks →
      ((∃ body, x.result = .complete body) ↔ reply.Brings limit settings.allowance reply.chunks) ∧
      (reply.Brings limit settings.allowance reply.chunks →
        x = completedBy reply.takes reply.chunks (dataOf reply.chunks))) := by
  obtain rfl : settings.bodyLimit = limit := by
    rw [WorkerSettings.bodyLimit, hlimit, Int.toNat_natCast]
  intro reply x kept
  have hkept : ∀ body, x.result = .complete body → body = kept := fun _ h =>
    Reply.eq_take_of_complete h
  refine ⟨fun body h => ?_, fun r text hr htext => ?_, fun read bytes rest hchunks hfills => ?_,
    fun hopen => ?_⟩
  · obtain rfl := hkept body h
    exact ⟨rfl, List.length_take, fun hallowed _ hheaders =>
      execute_of_complete hallowed hheaders h⟩
  · rcases received_of_tells (execute_tells hr) with ⟨-, body, harrives, htells⟩ | ⟨-, -, htells⟩
    · rw [htells.body] at htext
      cases htext
      rw [← hkept body (Reply.arrives_iff.2 harrives)]
      rfl
    · rw [htells.body] at htext
      cases htext
  · obtain ⟨hcomplete, hstop⟩ := Reply.ofReply_of_fills settings.allowance hchunks hfills
    refine ⟨hcomplete, hstop, fun replies later hreply => execute_scripted ⟨⟨_, hreply⟩, ?_⟩⟩
    rw [hreply]
    exact Reply.ofReply_later hchunks hfills later
  · obtain ⟨hcomplete, hall⟩ := Reply.ofReply_of_not_reaches settings.allowance hopen
    rw [(not_reaches_iff.1 hopen).take_eq] at hall
    exact ⟨hcomplete, hall⟩

end Client
namespace Sample

/-- The receiver that is overloaded, and that is silent for years after the same bytes. -/
def silenced : Reply :=
  { overloaded with chunks := overloaded.chunks.take 3 ++ [.delay (10 ^ 15), .data [0x21]] }

end Sample

open Sample Exchange in
/-- Four bytes are kept of five. What comes after them would break off the exchange, or take too
much time, and is not read. -/
theorem overloaded_answer_is_cut :
    brief.settings.maxBodyBytes = (4 : Nat) ∧
    (∃ r, (Client.execute brief.settings (claimed 0) event subscription 0 due).1 = .ok r ∧
      r.body = some "busy") ∧
    Fills 4 [.data [0x62, 0x75], .delay 500] [0x73, 0x79, 0x21] ∧
    Client.execute brief.settings (claimed 0) event subscription 0 (due.scripted [silenced]) =
      ((Client.execute brief.settings (claimed 0) event subscription 0 due).1,
        (Client.execute brief.settings (claimed 0) event subscription 0 due).2.scripted
          [silenced]) := by
  have hlimit : brief.settings.maxBodyBytes = (4 : Nat) := rfl
  have hfills : Fills 4 [.data [0x62, 0x75], .delay 500] [0x73, 0x79, 0x21] :=
    ⟨by decide, by decide, not_reaches_iff.2 (.inr (by decide))⟩
  obtain ⟨hkept, -, hstop, -⟩ :=
    Client.bodies_are_cut_at_the_limit hlimit (claimed 0) event subscription 0 due
  obtain ⟨-, -, hlater⟩ := hstop _ _ [.fault .timeout] rfl hfills
  refine ⟨hlimit, ?_, hfills, hlater [silenced] [.delay (10 ^ 15), .data [0x21]] rfl⟩
  have hsent : (Client.outboundHeaders brief.settings event subscription
      (ClockTime.unixSeconds 0)).toOption.isSome = true := by decide +kernel
  cases hheaders : Client.outboundHeaders brief.settings event subscription
      (ClockTime.unixSeconds 0) with
  | error error =>
    rw [hheaders] at hsent
    cases hsent
  | ok headers =>
    obtain ⟨-, -, hresponse⟩ := hkept [0x62, 0x75, 0x73, 0x79] (by decide +kernel)
    obtain ⟨r, hr, hbody⟩ := hresponse (by decide +kernel) headers hheaders
    refine ⟨r, hr, hbody.trans ?_⟩
    decide +kernel

end WebhookDelivery
