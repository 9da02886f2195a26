import Mathlib.Algebra.Ring.Int.Defs
import Mathlib.Data.List.Infix
import WebhookDelivery.Delivery.Exchange

/-!
# WebhookDelivery.Proofs.Exchanges

What comes of an exchange, by what the receiver does first.

* `IsReadThrough`: pieces after which the body is still read: none of them is a fault, the time was
  never up, and the body is not full.
* `Comes`: the body is complete, the time is up or the exchange breaks off after such pieces.
* `readBody_result_iff`: reading pieces has the result that comes of them.
* `arrives_iff`, `comesTooLate_iff`, `breaksOff_iff`: which replies an exchange ends with, and how it
  ends otherwise.
-/

namespace WebhookDelivery

namespace Chunk

def bytes : Chunk → Bytes
  | data bytes => bytes
  | _ => []

def micros : Chunk → Int
  | delay micros => micros
  | _ => 0

def isFault : Chunk → Bool
  | fault _ => true
  | _ => false

def isData : Chunk → Bool
  | data _ => true
  | _ => false

/-- What pieces bring to a body. -/
def dataOf (chunks : List Chunk) : Bytes := chunks.flatMap bytes

theorem append_dataOf_cons (body : Bytes) (c : Chunk) (rest : List Chunk) :
    body ++ dataOf (c :: rest) = body ++ c.bytes ++ dataOf rest :=
  (List.append_assoc body c.bytes (dataOf rest)).symm

theorem dataOf_append (first second : List Chunk) :
    dataOf (first ++ second) = dataOf first ++ dataOf second :=
  List.flatMap_append

/-- The time that pieces take. -/
def durationOf (chunks : List Chunk) : Int := (chunks.map micros).sum

/-- The number of pieces of data, of those without a byte too. -/
def piecesOf (chunks : List Chunk) : Nat := chunks.countP isData

end Chunk

namespace Exchange

open Chunk

variable {limit : Nat} {allowed : Allowance}

/-- Reading goes on after a body that is empty or has not reached the limit. -/
def IsOpen (limit : Nat) (body : Bytes) : Prop := body = [] ∨ body.length < limit

/-- Pieces that are read one after another after a body and a time, and do not end the reading. -/
structure IsReadThrough (limit : Nat) (allowed : Allowance) (body : Bytes) (elapsed : Int)
    (read : List Chunk) : Prop where
  quiet : ∀ c ∈ read, c.isFault = false
  timely : ∀ first, first <+: read → exceeds allowed (elapsed + durationOf first) = false
  notFull : IsOpen limit (body ++ dataOf read)

/-- What comes first of pieces that are read after a body and a time: the last piece or the one that
brings the body to the limit, a delay that is too long, or a fault. -/
def Comes (limit : Nat) (allowed : Allowance) (body : Bytes) (elapsed : Int) (chunks : List Chunk) :
    ExchangeResult → Prop
  | .complete full => ∃ read, IsReadThrough limit allowed body elapsed read ∧
      (chunks = read ∧ full = body ++ dataOf read ∨
        ∃ bytes rest, chunks = read ++ .data bytes :: rest ∧ bytes ≠ [] ∧
          limit ≤ (body ++ dataOf read ++ bytes).length ∧
          full = (body ++ dataOf read ++ bytes).take limit)
  | .timedOut => ∃ read micros rest, IsReadThrough limit allowed body elapsed read ∧
      chunks = read ++ .delay micros :: rest ∧
      exceeds allowed (elapsed + durationOf read + micros) = true
  | .broken f => ∃ read rest, IsReadThrough limit allowed body elapsed read ∧
      chunks = read ++ .fault f :: rest

theorem isReadThrough_nil {body : Bytes} {elapsed : Int} (ho : IsOpen limit body)
    (ht : exceeds allowed elapsed = false) : IsReadThrough limit allowed body elapsed [] where
  quiet := by simp
  timely := by simp [durationOf, ht]
  notFull := by simpa [dataOf] using ho

theorem isReadThrough_cons {body : Bytes} {elapsed : Int} {c : Chunk} {read : List Chunk} :
    IsReadThrough limit allowed body elapsed (c :: read) ↔
      c.isFault = false ∧ exceeds allowed elapsed = false ∧
        IsReadThrough limit allowed (body ++ c.bytes) (elapsed + c.micros) read := by
  have hdata := append_dataOf_cons body c read
  have hduration : ∀ first, elapsed + durationOf (c :: first) =
      elapsed + c.micros + durationOf first := fun first => by
    simp [durationOf, Int.add_assoc]
  constructor
  · rintro ⟨hquiet, htimely, hfull⟩
    have hnow := htimely [] List.nil_prefix
    refine ⟨hquiet c List.mem_cons_self, by simpa [durationOf] using hnow,
      fun d hd => hquiet d (List.mem_cons_of_mem c hd), fun first hf => ?_, hdata ▸ hfull⟩
    rw [← hduration]
    exact htimely (c :: first) (List.cons_prefix_cons.2 ⟨rfl, hf⟩)
  · rintro ⟨hc, hnow, hquiet, htimely, hfull⟩
    refine ⟨fun d hd => ?_, fun first hf => ?_, hdata ▸ hfull⟩
    · rcases List.mem_cons.1 hd with rfl | hd
      · exact hc
      · exact hquiet d hd
    · rcases List.prefix_cons_iff.1 hf with rfl | ⟨next, rfl, hnext⟩
      · simpa [durationOf] using hnow
      · rw [hduration]
        exact htimely next hnext

theorem IsOpen.of_append {body bytes : Bytes} (h : IsOpen limit (body ++ bytes)) :
    IsOpen limit body := by
  rcases h with hnil | hlt
  · exact .inl (List.append_eq_nil_iff.1 hnil).1
  · rw [List.length_append] at hlt
    exact .inr (by omega)

theorem IsReadThrough.isOpen {body : Bytes} {elapsed : Int} {read : List Chunk}
    (h : IsReadThrough limit allowed body elapsed read) : IsOpen limit body :=
  h.notFull.of_append

theorem IsOpen.length_le {body : Bytes} (h : IsOpen limit body) : body.length ≤ limit := by
  rcases h with rfl | hlt
  · exact Nat.zero_le _
  · exact hlt.le

theorem isOpen_append {body bytes : Bytes} (hne : bytes ≠ []) :
    IsOpen limit (body ++ bytes) ↔ ¬ limit ≤ (body ++ bytes).length := by
  simp [IsOpen, hne]

/-! ## Reading -/

theorem readBody_data {body bytes : Bytes} (ho : IsOpen limit body) (hne : bytes ≠ [])
    (elapsed : Int) (count : Nat) (rest : List Chunk) :
    readBody limit allowed body elapsed count (.data bytes :: rest) =
      if limit ≤ (body ++ bytes).length then
        ⟨.complete ((body ++ bytes).take limit), elapsed, count + 1⟩
      else readBody limit allowed (body ++ bytes) elapsed (count + 1) rest := by
  have hempty : bytes.isEmpty = false := by simpa using hne
  have hlen := ho.length_le
  have htake : body ++ before (limit - body.length) bytes = (body ++ bytes).take limit := by
    rw [before_sub hlen, List.take_append, List.take_of_length_le hlen]
  have hfull : limit ≤ (body ++ before (limit - body.length) bytes).length ↔
      limit ≤ (body ++ bytes).length := by
    simp only [before_sub hlen, List.length_append, List.length_take]
    omega
  rw [readBody, if_neg (by simp [hempty])]
  dsimp only
  rw [if_congr hfull (by rw [htake]) rfl]
  split
  · rfl
  · rename_i hopen
    rw [htake, List.take_of_length_le (Nat.not_le.1 hopen).le]

/-- Data that leaves the body open is kept as a whole. -/
theorem readBody_data_open {body bytes : Bytes} (ho : IsOpen limit (body ++ bytes))
    (elapsed : Int) (count : Nat) (rest : List Chunk) :
    readBody limit allowed body elapsed count (.data bytes :: rest) =
      readBody limit allowed (body ++ bytes) elapsed (count + 1) rest := by
  by_cases hne : bytes = []
  · simp [readBody, hne]
  · rw [readBody_data ho.of_append hne, if_neg ((isOpen_append hne).1 ho)]

/-- A piece that does not end the reading only adds to the body and to the time. -/
theorem readBody_cons {body : Bytes} {elapsed : Int} {c : Chunk} (hc : c.isFault = false)
    (ht : exceeds allowed (elapsed + c.micros) = false) (ho : IsOpen limit (body ++ c.bytes))
    (count : Nat) (rest : List Chunk) :
    readBody limit allowed body elapsed count (c :: rest) = readBody limit allowed
      (body ++ c.bytes) (elapsed + c.micros) (count + piecesOf [c]) rest := by
  cases c with
  | data bytes =>
    have hopen : IsOpen limit (body ++ bytes) := ho
    rw [readBody_data_open hopen]
    simp [Chunk.bytes, Chunk.micros, piecesOf, isData]
  | delay micros =>
    rw [readBody, if_neg (by simpa [Chunk.micros] using ht)]
    simp [Chunk.bytes, Chunk.micros, piecesOf, isData]
  | fault f => cases hc

/-- Pieces that do not end the reading only add to the body and to the time. -/
theorem readBody_append {read : List Chunk} {body : Bytes} {elapsed : Int}
    (h : IsReadThrough limit allowed body elapsed read) (count : Nat) (rest : List Chunk) :
    readBody limit allowed body elapsed count (read ++ rest) = readBody limit allowed
      (body ++ dataOf read) (elapsed + durationOf read) (count + piecesOf read) rest := by
  induction read generalizing body elapsed count with
  | nil => simp [dataOf, durationOf, piecesOf]
  | cons c read ih =>
    obtain ⟨hc, -, hread⟩ := isReadThrough_cons.1 h
    have ht : exceeds allowed (elapsed + c.micros) = false := by
      simpa [durationOf] using hread.timely [] List.nil_prefix
    have hpieces : piecesOf (c :: read) = piecesOf [c] + piecesOf read := by
      rw [piecesOf, piecesOf, piecesOf, ← List.countP_append, List.singleton_append]
    rw [List.cons_append, readBody_cons hc ht hread.isOpen, ih hread, hpieces]
    simp [dataOf, durationOf, Int.add_assoc, Nat.add_assoc]

/-- A result that comes of the pieces is the one that reading them has. -/
theorem readBody_of_comes {body : Bytes} {elapsed : Int} {chunks : List Chunk}
    {result : ExchangeResult} (h : Comes limit allowed body elapsed chunks result) (count : Nat) :
    (readBody limit allowed body elapsed count chunks).result = result := by
  cases result with
  | complete full =>
    obtain ⟨read, hread, ⟨rfl, rfl⟩ | ⟨bytes, rest, rfl, hne, hfull, rfl⟩⟩ := h
    · have hall := readBody_append hread count []
      rw [List.append_nil] at hall
      rw [hall]
      rfl
    · rw [readBody_append hread, readBody_data hread.notFull hne, if_pos hfull]
  | timedOut =>
    obtain ⟨read, micros, rest, hread, rfl, hlate⟩ := h
    rw [readBody_append hread, readBody, if_pos hlate]
    rfl
  | broken f =>
    obtain ⟨read, rest, hread, rfl⟩ := h
    rw [readBody_append hread]
    rfl

/-- A piece that does not end the reading leaves it to the others what comes. -/
theorem Comes.cons {body : Bytes} {elapsed : Int} {c : Chunk} {rest : List Chunk}
    (hc : c.isFault = false) (ht : exceeds allowed elapsed = false) {result : ExchangeResult}
    (h : Comes limit allowed (body ++ c.bytes) (elapsed + c.micros) rest result) :
    Comes limit allowed body elapsed (c :: rest) result := by
  cases result with
  | complete full =>
    obtain ⟨read, hread, hfull⟩ := h
    rw [← append_dataOf_cons] at hfull
    refine ⟨c :: read, isReadThrough_cons.2 ⟨hc, ht, hread⟩, ?_⟩
    rcases hfull with ⟨rfl, hfull⟩ | ⟨bytes, rest, rfl, hfull⟩
    · exact .inl ⟨rfl, hfull⟩
    · exact .inr ⟨bytes, rest, rfl, hfull⟩
  | timedOut =>
    obtain ⟨read, micros, rest, hread, rfl, hlate⟩ := h
    refine ⟨c :: read, micros, rest, isReadThrough_cons.2 ⟨hc, ht, hread⟩, rfl, ?_⟩
    simpa [durationOf, Int.add_assoc] using hlate
  | broken f =>
    obtain ⟨read, rest, hread, rfl⟩ := h
    exact ⟨c :: read, rest, isReadThrough_cons.2 ⟨hc, ht, hread⟩, rfl⟩

/-- The result of reading comes of the pieces. -/
theorem comes_readBody (chunks : List Chunk) {body : Bytes} {elapsed : Int}
    (ho : IsOpen limit body) (ht : exceeds allowed elapsed = false) (count : Nat) :
    Comes limit allowed body elapsed chunks
      (readBody limit allowed body elapsed count chunks).result := by
  induction chunks generalizing body elapsed count with
  | nil => exact ⟨[], isReadThrough_nil ho ht, .inl ⟨rfl, by simp [dataOf]⟩⟩
  | cons c rest ih =>
    cases c with
    | data bytes =>
      by_cases hne : bytes = []
      · subst hne
        have hrest := ih ho ht (count + 1)
        refine .cons rfl ht ?_
        simpa [readBody, Chunk.bytes, Chunk.micros] using hrest
      · rw [readBody_data ho hne]
        by_cases hfull : limit ≤ (body ++ bytes).length
        · rw [if_pos hfull]
          exact ⟨[], isReadThrough_nil ho ht,
            .inr ⟨bytes, rest, rfl, hne, by simpa [dataOf] using hfull, by simp [dataOf]⟩⟩
        · rw [if_neg hfull]
          have hrest := ih ((isOpen_append hne).2 hfull) ht (count + 1)
          exact .cons rfl ht (by simpa [Chunk.bytes, Chunk.micros] using hrest)
    | delay micros =>
      rw [readBody]
      by_cases hlate : exceeds allowed (elapsed + micros) = true
      · rw [if_pos hlate]
        exact ⟨[], micros, rest, isReadThrough_nil ho ht, rfl, by simpa [durationOf] using hlate⟩
      · rw [if_neg hlate]
        have hrest := ih ho (by simpa using hlate) count
        exact .cons rfl ht (by simpa [Chunk.bytes, Chunk.micros] using hrest)
    | fault f => exact ⟨[], rest, isReadThrough_nil ho ht, rfl⟩

theorem readBody_result_iff {body : Bytes} {elapsed : Int} (ho : IsOpen limit body)
    (ht : exceeds allowed elapsed = false) {count : Nat} {chunks : List Chunk}
    {result : ExchangeResult} :
    (readBody limit allowed body elapsed count chunks).result = result ↔
      Comes limit allowed body elapsed chunks result := by
  constructor
  · rintro rfl
    exact comes_readBody chunks ho ht count
  · exact fun h => readBody_of_comes h count

end Exchange

/-! ## Replies -/

namespace Reply

open Exchange

variable {limit : Nat} {allowed : Allowance} {r : Reply}

/-- The reply arrives in time, and its body has been read. -/
def Arrives (r : Reply) (limit : Nat) (allowed : Allowance) (body : Bytes) : Prop :=
  r.fault = none ∧ Comes limit allowed [] r.takes r.chunks (.complete body)

/-- The time is up before the reply comes or while its body is read. -/
def ComesTooLate (r : Reply) (limit : Nat) (allowed : Allowance) : Prop :=
  exceeds allowed r.takes = true ∨
    r.fault = none ∧ Comes limit allowed [] r.takes r.chunks .timedOut

/-- The exchange breaks off in time, in place of the reply or while its body is read. -/
def BreaksOff (r : Reply) (limit : Nat) (allowed : Allowance) (f : ExchangeFault) : Prop :=
  exceeds allowed r.takes = false ∧ r.fault = some f ∨
    r.fault = none ∧ Comes limit allowed [] r.takes r.chunks (.broken f)

/-- What comes of pieces comes in time of the first of them. -/
theorem timely_of_comes {body : Bytes} {elapsed : Int} {chunks : List Chunk}
    {result : ExchangeResult} (h : Comes limit allowed body elapsed chunks result) :
    exceeds allowed elapsed = false := by
  have hread : ∃ read, IsReadThrough limit allowed body elapsed read := by
    cases result with
    | complete full =>
      obtain ⟨read, hread, -⟩ := h
      exact ⟨read, hread⟩
    | timedOut =>
      obtain ⟨read, -, -, hread, -⟩ := h
      exact ⟨read, hread⟩
    | broken f =>
      obtain ⟨read, -, hread, -⟩ := h
      exact ⟨read, hread⟩
  obtain ⟨read, hread⟩ := hread
  simpa [Chunk.durationOf] using hread.timely [] List.nil_prefix

/-- The result of an exchange, for a reply that comes in time and for one that does not. -/
theorem ofReply_result_iff {result : ExchangeResult} :
    (ofReply limit allowed r).result = result ↔
      exceeds allowed r.takes = true ∧ result = .timedOut ∨
      exceeds allowed r.takes = false ∧ (∃ f, r.fault = some f ∧ result = .broken f) ∨
      r.fault = none ∧ Comes limit allowed [] r.takes r.chunks result := by
  unfold ofReply
  cases ht : exceeds allowed r.takes with
  | true =>
    have hlate : ¬ Comes limit allowed [] r.takes r.chunks result := fun h => by
      rw [timely_of_comes h] at ht
      cases ht
    simp [cutOff, hlate, eq_comm]
  | false =>
    cases hf : r.fault with
    | some f => simp [eq_comm]
    | none => simp [readBody_result_iff (.inl rfl) ht]

theorem arrives_iff {body : Bytes} :
    (ofReply limit allowed r).result = .complete body ↔ r.Arrives limit allowed body := by
  simp [ofReply_result_iff, Arrives]

theorem comesTooLate_iff :
    (ofReply limit allowed r).result = .timedOut ↔ r.ComesTooLate limit allowed := by
  simp [ofReply_result_iff, ComesTooLate]

theorem breaksOff_iff {f : ExchangeFault} :
    (ofReply limit allowed r).result = .broken f ↔ r.BreaksOff limit allowed f := by
  simp [ofReply_result_iff, BreaksOff]

end Reply
end WebhookDelivery
