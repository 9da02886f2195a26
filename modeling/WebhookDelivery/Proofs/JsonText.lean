import Mathlib.Data.List.Basic
import WebhookDelivery.Json.Dump
import WebhookDelivery.Json.Parser

/-!
# WebhookDelivery.Proofs.JsonText

A document that is written in ASCII is read back, if its objects name each member once and it holds
no numbers in double precision.

* `readString_dump`, `readValue_int`: a text is read back up to its closing quote, and an integer up
  to what ends it.
* `Reads`, `reads_of_isPlain`: so is every value, by induction on the document.
* `parse_dump`: the whole text gives the document.
-/

namespace WebhookDelivery
namespace Json

open Text (hexDigit)

/-! ## Texts -/

theorem hexFour?_hexDigit {n : Nat} (h : n < 0x10000) :
    hexFour? (hexDigit (n / 16 / 16 / 16 % 16)) (hexDigit (n / 16 / 16 % 16))
      (hexDigit (n / 16 % 16)) (hexDigit (n % 16)) = some n := by
  have hvalue : ∀ m, Text.hexValue? (hexDigit (m % 16)) = some (m % 16) := fun m =>
    Text.hexValue?_hexDigit _ (Nat.mod_lt _ (by decide))
  rw [hexFour?, hvalue, hvalue, hvalue, hvalue]
  exact congrArg some (by omega)

variable {n : Nat} {c e : Char} {rest : List Char}

theorem readString_unit (h : n < 0x10000) (start position : Nat) (done : LooseText) :
    readString start position none done (escapeUnit n ++ e :: rest) =
      readString start (position + 6) (if 0xd800 ≤ n ∧ n < 0xdc00 then some n else none)
        (.ofNat n :: done) (e :: rest) := by
  change readString start position none done ('\\' :: 'u' :: hexDigit (n / 16 / 16 / 16 % 16) ::
    hexDigit (n / 16 / 16 % 16) :: hexDigit (n / 16 % 16) :: hexDigit (n % 16) :: e :: rest) = _
  rw [readString, hexFour?_hexDigit h]

theorem readString_low (h : n < 0x400) {high : Nat} (start position : Nat) (x : CodePoint)
    (done : LooseText) :
    readString start position (some high) (x :: done) (escapeUnit (0xdc00 + n) ++ e :: rest) =
      readString start (position + 6) none
        (.char (Char.ofNat (0x10000 + (high - 0xd800) * 1024 + n)) :: done) (e :: rest) := by
  have hunit := @hexFour?_hexDigit (0xdc00 + n) (by omega)
  generalize hm : 0xdc00 + n = m at hunit
  change readString start position (some high) (x :: done) ('\\' :: 'u' ::
    hexDigit (m / 16 / 16 / 16 % 16) :: hexDigit (m / 16 / 16 % 16) :: hexDigit (m / 16 % 16) ::
    hexDigit (m % 16) :: e :: rest) = _
  rw [readString, hunit]
  dsimp only
  rw [if_pos (by omega), ← hm, Nat.add_sub_cancel_left]

theorem unescape?_escapeLetter {letter : Char} (h : escapeLetter? c = some letter) :
    letter ≠ 'u' ∧ unescape? letter = some c := by
  have hchar : ∀ n, c.toNat = n → c = Char.ofNat n := fun n hn => by
    rw [← hn, Char.ofNat_toNat]
  unfold escapeLetter? at h
  repeat' split at h
  all_goals
    cases h
  all_goals
    rename_i hn
    rw [hchar _ hn]
    exact ⟨by decide, rfl⟩

theorem toNat_cases (c : Char) : c.toNat < 0xd800 ∨ 0xe000 ≤ c.toNat ∧ c.toNat < 0x110000 := by
  have hvalid : c.toNat < 0xd800 ∨ 0xdfff < c.toNat ∧ c.toNat < 0x110000 := c.valid
  omega

theorem codePoint_ofNat_toNat (c : Char) : CodePoint.ofNat c.toNat = .char c := by
  have hcases := toNat_cases c
  rw [CodePoint.ofNat, if_neg (by omega), Char.ofNat_toNat]

theorem readString_dumpChar (c : Char) (start position : Nat) (done : LooseText) {tail : List Char}
    (h : tail ≠ []) : ∃ p, readString start position none done (dumpChar c ++ tail) =
      readString start p none (.char c :: done) tail := by
  obtain ⟨e, rest, rfl⟩ := List.exists_cons_of_ne_nil h
  rw [dumpChar]
  split
  · rename_i hmark
    rcases hmark with rfl | rfl
    · exact ⟨position + 2, rfl⟩
    · exact ⟨position + 2, rfl⟩
  · rename_i hmark
    rw [not_or] at hmark
    split
    · rename_i hplain
      refine ⟨position + 1, ?_⟩
      rw [List.singleton_append, readString]
      · rw [if_neg (by omega)]
      · exact hmark.1
      · exact hmark.2
    · split
      · rename_i letter hletter
        obtain ⟨hu, hunescape⟩ := unescape?_escapeLetter hletter
        refine ⟨position + 2, ?_⟩
        rw [List.cons_append, List.singleton_append, readString, hunescape]
        · rintro _ _ _ _ _ _ rfl
          exact absurd rfl hu
        · exact hu
      · split
        · rename_i hsmall
          have hcases := toNat_cases c
          exact ⟨position + 6, by
            rw [readString_unit hsmall, codePoint_ofNat_toNat, if_neg (by omega)]⟩
        · rename_i hlarge
          have hcases := toNat_cases c
          refine ⟨position + 12, ?_⟩
          generalize hn : c.toNat - 0x10000 = n
          have hsecond : escapeUnit (0xdc00 + n % 1024) ++ e :: rest =
            '\\' :: ('u' :: Text.hexDigits 4 (0xdc00 + n % 1024) ++ e :: rest) := rfl
          rw [List.append_assoc, hsecond, readString_unit (by omega), if_pos (by omega), ← hsecond,
            readString_low (Nat.mod_lt _ (by decide))]
          have hc : 0x10000 + (0xd800 + n / 1024 - 0xd800) * 1024 + n % 1024 = c.toNat := by omega
          rw [hc, Char.ofNat_toNat]

/-- A text is read back, whatever follows its closing quote. -/
theorem readString_dump (s : List Char) (start position : Nat) (done : LooseText)
    (rest : List Char) :
    ∃ p, readString start position none done (s.flatMap dumpChar ++ '"' :: rest) =
      .ok (done.reverse ++ .ofChars s, ⟨p, rest⟩) := by
  induction s generalizing position done with
  | nil => exact ⟨position + 1, by rw [LooseText.ofChars, List.map_nil, List.append_nil]; rfl⟩
  | cons c s ih =>
    rw [List.flatMap_cons, List.append_assoc]
    obtain ⟨p, hchar⟩ := readString_dumpChar c start position done
      (List.append_ne_nil_of_right_ne_nil (s.flatMap dumpChar) (List.cons_ne_nil '"' rest))
    obtain ⟨q, hrest⟩ := ih p (.char c :: done)
    exact ⟨q, by rw [hchar, hrest, List.reverse_cons, List.append_assoc]; rfl⟩

/-! ## Numbers -/

/-- A value ends here: the text is at its end, or at a mark that follows an item or a member. -/
def Follows (rest : List Char) : Prop := ∀ c ∈ rest.head?, c = ',' ∨ c = ']' ∨ c = '}'

theorem follows_nil : Follows [] := by
  intro c hc
  cases hc

theorem follows_cons (h : c = ',' ∨ c = ']' ∨ c = '}') : Follows (c :: rest) := by
  rintro d ⟨⟩
  exact h

/-- What ends a value is neither a digit, nor a blank, nor does it carry a number on. -/
theorem Follows.cases (h : Follows rest) : rest = [] ∨ ∃ c tail, rest = c :: tail ∧
    Decimal.isDigit c = false ∧ isSpace c = false ∧ c ≠ '.' ∧ c ≠ 'e' ∧ c ≠ 'E' := by
  cases rest with
  | nil => exact .inl rfl
  | cons c tail =>
    refine .inr ⟨c, tail, rfl, ?_⟩
    rcases h c rfl with rfl | rfl | rfl <;> decide

theorem isDigit_of_mem_toDigits (h : c ∈ Nat.toDigits 10 n) : Decimal.isDigit c = true := by
  have hdigit := Nat.isDigit_of_mem_toDigits (by decide) (by decide) h
  rw [Char.isDigit, Bool.and_eq_true, decide_eq_true_eq, decide_eq_true_eq] at hdigit
  rw [Decimal.isDigit, Bool.and_eq_true, decide_eq_true_eq, decide_eq_true_eq]
  exact hdigit

theorem head?_toDigits (h : n ≠ 0) : (Nat.toDigits 10 n).head? ≠ some '0' := by
  induction n using Nat.strongRecOn with
  | ind n ih =>
    rw [Nat.toDigits_eq_if (by decide)]
    split
    · have hsmall : ∀ m < 10, m ≠ 0 → [m.digitChar].head? ≠ some '0' := by decide
      exact hsmall n (by assumption) h
    · rename_i hlarge
      rw [List.head?_append_of_ne_nil _ Nat.toDigits_ne_nil]
      exact ih (n / 10) (by omega) (by omega)

/-- The digits of a number are taken, up to what ends it. -/
theorem takeWhile_digits (h : Follows rest) :
    (Nat.toDigits 10 n ++ rest).takeWhile Decimal.isDigit = Nat.toDigits 10 n := by
  rw [List.takeWhile_append_of_pos fun c hc => isDigit_of_mem_toDigits hc]
  rcases h.cases with rfl | ⟨c, tail, rfl, hdigit, -⟩
  · simp
  · simp [hdigit]

theorem readNumber_digits (negative : Bool) (start position : Nat)
    (hlength : (Nat.toDigits 10 n).length ≤ 4300) (h : Follows rest) :
    readNumber negative start ⟨position, Nat.toDigits 10 n ++ rest⟩ =
      .ok (.int (if negative then -(n : Int) else n),
        ⟨position + (Nat.toDigits 10 n).length, rest⟩) := by
  have hvalue : Decimal.digitsValue (Nat.toDigits 10 n) = n := Nat.ofDigitChars_ten_toDigits
  have hfraction : takeFraction rest = [] := by
    rcases h.cases with rfl | ⟨c, tail, rfl, -, -, hpoint, -⟩
    · rfl
    · rw [takeFraction]
      rintro _ ⟨⟩
      exact hpoint rfl
  have hexponent : takeExponent? rest = none := by
    rcases h.cases with rfl | ⟨c, tail, rfl, -, -, -, he, hE⟩
    · rfl
    · unfold takeExponent?
      dsimp only
      rw [if_neg (not_or.mpr ⟨he, hE⟩)]
  have hdrop : Cursor.drop ⟨position, Nat.toDigits 10 n ++ rest⟩ (Nat.toDigits 10 n).length =
      ⟨position + (Nat.toDigits 10 n).length, rest⟩ := by
    rw [Cursor.drop, List.drop_left]
  have hwhole : ¬ (Nat.toDigits 10 n).isEmpty = true := by
    rw [List.isEmpty_iff]
    exact Nat.toDigits_ne_nil
  unfold readNumber
  dsimp only
  split
  · rename_i heq
    have hzero : n = 0 := by
      by_contra hn
      have hhead := congrArg List.head? heq
      rw [List.head?_append_of_ne_nil _ Nat.toDigits_ne_nil] at hhead
      exact head?_toDigits hn hhead
    rw [show ['0'] = Nat.toDigits 10 n by rw [hzero]; rfl, hdrop, if_neg hwhole]
    simp only [hfraction, hexponent, List.isEmpty_nil, if_true, hvalue,
      if_neg (Nat.not_lt.mpr hlength)]
  · rw [takeWhile_digits h, hdrop, if_neg hwhole]
    simp only [hfraction, hexponent, List.isEmpty_nil, if_true, hvalue,
      if_neg (Nat.not_lt.mpr hlength)]

theorem exists_digit (n : Nat) :
    ∃ c tail, Nat.toDigits 10 n = c :: tail ∧ Decimal.isDigit c = true := by
  obtain ⟨c, tail, h⟩ := List.exists_cons_of_ne_nil (@Nat.toDigits_ne_nil n 10)
  exact ⟨c, tail, h, isDigit_of_mem_toDigits (n := n) (h ▸ List.mem_cons_self)⟩

theorem toList_toString (i : Int) :
    (toString i).toList = (if i < 0 then ['-'] else []) ++ Nat.toDigits 10 i.natAbs := by
  rw [Int.toString_eq_repr, Int.repr_eq_if]
  split
  · rw [if_neg (by omega), Nat.toList_repr, List.nil_append, show i.toNat = i.natAbs by omega]
  · rw [if_pos (by omega), String.toList_append, Nat.toList_repr,
      show (-i).toNat = i.natAbs by omega]
    rfl

/-- No word begins with a digit. -/
theorem startsWith_digit {word : String} {d : Char} {letters : List Char}
    (hword : word.toList = d :: letters) (hd : Decimal.isDigit d = false)
    (hc : Decimal.isDigit c = true) : startsWith word (c :: rest) = false := by
  have hne : (d == c) = false := beq_eq_false_iff_ne.mpr fun hsame => by
    rw [hsame, hc] at hd
    cases hd
  rw [startsWith, hword, List.isPrefixOf_cons_cons, hne, Bool.false_and]

/-- An integer is read back where it ends. -/
theorem readValue_int (i : Int) (hlength : (Nat.toDigits 10 i.natAbs).length ≤ 4300)
    (depth position : Nat) (h : Follows rest) :
    ∃ p, readValue (depth + 1) ⟨position, (toString i).toList ++ rest⟩ =
      .ok (.int i, ⟨p, rest⟩) := by
  obtain ⟨c, tail, hdigits, hc⟩ := exists_digit i.natAbs
  have hne : ∀ d, Decimal.isDigit d = false → c ≠ d := fun d hd hsame => by
    rw [← hsame, hc] at hd
    cases hd
  have hword : ∀ (word : String) d letters, word.toList = d :: letters →
      Decimal.isDigit d = false → ¬ startsWith word (c :: (tail ++ rest)) = true :=
    fun word d letters hw hd => by rw [startsWith_digit hw hd hc]; exact Bool.false_ne_true
  rw [toList_toString]
  split
  · rename_i hnegative
    refine ⟨position + 1 + (Nat.toDigits 10 i.natAbs).length, ?_⟩
    have hnumber := readNumber_digits true position (position + 1) hlength h
    rw [if_pos rfl, show -(i.natAbs : Int) = i by omega] at hnumber
    rw [← hnumber, hdigits, List.singleton_append, List.cons_append, readValue]
    exact if_neg (hword "Infinity" _ _ rfl rfl)
  · refine ⟨position + (Nat.toDigits 10 i.natAbs).length, ?_⟩
    have hnumber := readNumber_digits false position position hlength h
    rw [if_neg Bool.false_ne_true, show (i.natAbs : Int) = i by omega] at hnumber
    rw [← hnumber, hdigits, List.nil_append, List.cons_append, readValue]
    dsimp only
    split
    · rename_i heq
      exact absurd (List.cons.inj heq).1 (hne _ rfl)
    · rename_i heq
      exact absurd (List.cons.inj heq).1 (hne _ rfl)
    · rename_i heq
      exact absurd (List.cons.inj heq).1 (hne _ rfl)
    · rename_i heq
      exact absurd (List.cons.inj heq).1 (hne _ rfl)
    · rw [if_neg (hword "null" _ _ rfl rfl), if_neg (hword "true" _ _ rfl rfl),
        if_neg (hword "false" _ _ rfl rfl), if_neg (hword "NaN" _ _ rfl rfl),
        if_neg (hword "Infinity" _ _ rfl rfl)]

/-! ## Blanks -/

theorem skipSpace_append {space : List Char} (hspace : ∀ c ∈ space, isSpace c = true)
    (hc : isSpace c = false) (position : Nat) : Cursor.skipSpace ⟨position, space ++ c :: rest⟩ =
      ⟨position + space.length, c :: rest⟩ := by
  rw [Cursor.skipSpace, List.takeWhile_append_of_pos hspace, List.dropWhile_append_of_pos hspace]
  simp [hc]

theorem skipSpace_cons (hc : isSpace c = false) (position : Nat) :
    Cursor.skipSpace ⟨position, c :: rest⟩ = ⟨position, c :: rest⟩ :=
  @skipSpace_append c rest [] (fun _ h => absurd h List.not_mem_nil) hc position

theorem isSpace_of_isDigit (hc : Decimal.isDigit c = true) : isSpace c = false := by
  rw [Bool.eq_false_iff]
  intro hspace
  simp only [isSpace, Bool.or_eq_true, decide_eq_true_eq] at hspace
  rcases hspace with ((rfl | rfl) | rfl) | rfl <;> cases hc

/-! ## Documents -/

/-- A document without numbers in double precision and without halves of surrogate pairs, in which
objects name each member once and no integer is too long to be read. -/
inductive IsPlain : Json → Prop
  | null : IsPlain .null
  | bool (b : Bool) : IsPlain (.bool b)
  | int (i : Int) (length : (Nat.toDigits 10 i.natAbs).length ≤ 4300) : IsPlain (.int i)
  | str (s : String) : IsPlain (.str s)
  | arr (items : List Json) (each : ∀ x ∈ items, IsPlain x) : IsPlain (.arr items)
  | obj (members : List (String × Json)) (distinct : (members.map (·.1)).Nodup)
      (each : ∀ m ∈ members, IsPlain m.2) : IsPlain (.obj members)

/-- The beginning of a value: neither a blank nor what closes an array or an object. -/
def Begins (s : List Char) : Prop :=
  ∃ c tail, s = c :: tail ∧ isSpace c = false ∧ c ≠ ']' ∧ c ≠ '}'

theorem Begins.append {s : List Char} (h : Begins s) (rest : List Char) : Begins (s ++ rest) := by
  obtain ⟨c, tail, rfl, hc⟩ := h
  exact ⟨c, tail ++ rest, rfl, hc⟩

variable {space : List Char} {j : Json}

theorem begins_dumpString (s : String) : Begins (dumpString s) :=
  ⟨'"', _, rfl, by decide, by decide, by decide⟩

theorem begins_dump (space : List Char) (h : j.IsPlain) : Begins (dump space j) := by
  cases h with
  | null => exact ⟨'n', _, rfl, by decide, by decide, by decide⟩
  | bool b =>
    cases b with
    | false => exact ⟨'f', _, rfl, by decide, by decide, by decide⟩
    | true => exact ⟨'t', _, rfl, by decide, by decide, by decide⟩
  | int i =>
    obtain ⟨c, tail, hdigits, hc⟩ := exists_digit i.natAbs
    rw [dump, toList_toString, hdigits]
    split
    · exact ⟨'-', _, rfl, by decide, by decide, by decide⟩
    · refine ⟨c, tail, rfl, ?_, ?_, ?_⟩
      · exact isSpace_of_isDigit hc
      · rintro rfl
        cases hc
      · rintro rfl
        cases hc
  | str s => exact begins_dumpString s
  | arr => exact ⟨'[', _, rfl, by decide, by decide, by decide⟩
  | obj => exact ⟨'{', _, rfl, by decide, by decide, by decide⟩

/-- The value is read back from what is written of it, up to what ends it. -/
def Reads (space : List Char) (j : Json) : Prop :=
  ∀ depth position rest, 2 * (dump space j).length ≤ depth → Follows rest →
    ∃ p, readValue depth ⟨position, dump space j ++ rest⟩ = .ok (j, ⟨p, rest⟩)

theorem dumpItems_cons (item next : Json) (more : List Json) :
    dumpItems space (item :: next :: more) =
      dump space item ++ ',' :: (space ++ dumpItems space (next :: more)) := by
  rw [dumpItems, List.append_assoc, List.cons_append]
  exact List.cons_ne_nil _ _

theorem begins_dumpItems (space : List Char) {item : Json} (h : item.IsPlain) (more : List Json) :
    Begins (dumpItems space (item :: more)) := by
  cases more with
  | nil => exact begins_dump space h
  | cons next more =>
    rw [dumpItems_cons]
    exact (begins_dump space h).append _

theorem readItems_dump (hspace : ∀ c ∈ space, isSpace c = true) {item : Json} {more : List Json}
    (plain : ∀ x ∈ item :: more, x.IsPlain) (each : ∀ x ∈ item :: more, Reads space x)
    (depth : Nat) (done : List Json) (position : Nat) (rest : List Char)
    (hdepth : 2 * (dumpItems space (item :: more)).length ≤ depth) :
    ∃ p, readItems (depth + 1) done ⟨position, dumpItems space (item :: more) ++ ']' :: rest⟩ =
      .ok (.arr (done.reverse ++ item :: more), ⟨p, rest⟩) := by
  induction more generalizing item depth done position with
  | nil =>
    rw [dumpItems] at hdepth ⊢
    obtain ⟨p, hvalue⟩ := each item List.mem_cons_self depth position (']' :: rest) hdepth
      (follows_cons (.inr (.inl rfl)))
    refine ⟨p + 1, ?_⟩
    rw [readItems, hvalue]
    dsimp only
    rw [skipSpace_cons (by decide)]
    dsimp only
    rw [List.reverse_cons]
    rfl
  | cons next more ih =>
    rw [dumpItems_cons] at hdepth ⊢
    rw [List.length_append, List.length_cons, List.length_append] at hdepth
    rw [List.forall_mem_cons] at plain each
    obtain ⟨p, hvalue⟩ := each.1 depth position
      (',' :: (space ++ dumpItems space (next :: more)) ++ ']' :: rest) (by omega)
      (follows_cons (.inl rfl))
    obtain ⟨depth, rfl⟩ := Nat.exists_eq_succ_of_ne_zero (show depth ≠ 0 by omega)
    obtain ⟨q, hrest⟩ := ih plain.2 each.2 depth (item :: done) (p + 1 + space.length) (by omega)
    obtain ⟨c, tail, hbegins, hc, -⟩ :=
      (begins_dumpItems space (plain.2 next List.mem_cons_self) more).append (']' :: rest)
    refine ⟨q, ?_⟩
    rw [hbegins, List.reverse_cons, List.append_assoc, List.singleton_append] at hrest
    rw [List.append_assoc, readItems, hvalue, List.cons_append, List.append_assoc, hbegins]
    dsimp only
    rw [skipSpace_cons (by decide)]
    dsimp only
    change readItems (depth + 1) (item :: done)
      (Cursor.skipSpace ⟨p + 1, space ++ c :: tail⟩) = _
    rw [skipSpace_append hspace hc, hrest]

theorem putMember_of_new {members : List (String × Json)} {name : String}
    (h : name ∉ members.map (·.1)) (value : Json) :
    putMember members name value = members ++ [(name, value)] := by
  rw [putMember, if_neg]
  rw [List.any_eq_true]
  rintro ⟨m, hm, hname⟩
  exact h (List.mem_map.mpr ⟨m, hm, eq_of_beq hname⟩)

theorem dumpMembers_cons (name : String) (value : Json) (next : String × Json)
    (more : List (String × Json)) : dumpMembers space ((name, value) :: next :: more) =
      dumpString name ++ ':' :: (space ++ (dump space value ++
        ',' :: (space ++ dumpMembers space (next :: more)))) := by
  rw [dumpMembers]
  · simp only [List.append_assoc, List.cons_append]
  · exact List.cons_ne_nil _ _

theorem begins_dumpMembers (space : List Char) (m : String × Json) (more : List (String × Json)) :
    Begins (dumpMembers space (m :: more)) := by
  cases more with
  | nil => exact ⟨'"', _, rfl, by decide, by decide, by decide⟩
  | cons next more =>
    rw [dumpMembers_cons]
    exact (begins_dumpString _).append _

/-- A member is read as far as its value. -/
theorem readMembers_step (hspace : ∀ c ∈ space, isSpace c = true) (name : String) {value : Json}
    (plain : value.IsPlain) (reads : Reads space value) (depth : Nat)
    (done : List (String × Json)) (position : Nat)
    (hdepth : 2 * (dump space value).length ≤ depth) {mark : Char}
    (hmark : mark = ',' ∨ mark = '}') (rest : List Char) :
    ∃ p, readMembers (depth + 1) done
        ⟨position, dumpString name ++ ':' :: (space ++ (dump space value ++ mark :: rest))⟩ =
      if mark = '}' then .ok (.obj (putMember done name value), ⟨p + 1, rest⟩)
      else readMembers depth (putMember done name value) (Cursor.skipSpace ⟨p + 1, rest⟩) := by
  obtain ⟨p, hname⟩ := readString_dump name.toList position (position + 1) []
    (':' :: (space ++ (dump space value ++ mark :: rest)))
  have hfollows : Follows (mark :: rest) :=
    follows_cons (hmark.imp_right .inr)
  obtain ⟨c, tail, hbegins, hc, -⟩ := (begins_dump space plain).append (mark :: rest)
  obtain ⟨q, hvalue⟩ := reads depth (p + 1 + space.length) (mark :: rest) hdepth hfollows
  refine ⟨q, ?_⟩
  have hopen : dumpString name ++ ':' :: (space ++ (dump space value ++ mark :: rest)) =
      '"' :: (name.toList.flatMap dumpChar ++
        '"' :: ':' :: (space ++ (dump space value ++ mark :: rest))) := by
    rw [dumpString, List.cons_append, List.cons_append, List.append_assoc, List.singleton_append]
  rw [hopen, readMembers]
  simp only [hname]
  rw [skipSpace_cons (by decide)]
  rw [hbegins] at hvalue ⊢
  have hcolon : (Cursor.drop ⟨p, ':' :: (space ++ c :: tail)⟩ 1).skipSpace =
      ⟨p + 1 + space.length, c :: tail⟩ := skipSpace_append hspace hc _
  simp only [hcolon, hvalue]
  have hplain : isSpace mark = false := by rcases hmark with rfl | rfl <;> decide
  rw [skipSpace_cons hplain, List.reverse_nil, List.nil_append, LooseText.map_shown_ofChars,
    String.ofList_toList]
  rcases hmark with rfl | rfl
  · rw [if_neg (by decide)]
    rfl
  · rw [if_pos rfl]
    rfl

theorem new_of_distinct {members more : List (String × Json)} {name : String} {value : Json}
    (h : ((members ++ (name, value) :: more).map (·.1)).Nodup) : name ∉ members.map (·.1) := by
  rw [List.map_append, List.nodup_append] at h
  exact fun hmem => h.2.2 name hmem name List.mem_cons_self rfl

theorem readMembers_dump (hspace : ∀ c ∈ space, isSpace c = true) {m : String × Json}
    {more : List (String × Json)} (plain : ∀ x ∈ m :: more, x.2.IsPlain)
    (each : ∀ x ∈ m :: more, Reads space x.2) (depth : Nat) (done : List (String × Json))
    (distinct : ((done ++ m :: more).map (·.1)).Nodup) (position : Nat) (rest : List Char)
    (hdepth : 2 * (dumpMembers space (m :: more)).length ≤ depth) :
    ∃ p, readMembers (depth + 1) done
        ⟨position, dumpMembers space (m :: more) ++ '}' :: rest⟩ =
      .ok (.obj (done ++ m :: more), ⟨p, rest⟩) := by
  induction more generalizing m depth done position with
  | nil =>
    obtain ⟨name, value⟩ := m
    have hnew := new_of_distinct distinct
    have hvalue : value.IsPlain ∧ Reads space value :=
      ⟨plain _ List.mem_cons_self, each _ List.mem_cons_self⟩
    have htext : dumpMembers space [(name, value)] ++ '}' :: rest =
        dumpString name ++ ':' :: (space ++ (dump space value ++ '}' :: rest)) := by
      simp only [dumpMembers, List.append_assoc, List.cons_append]
    rw [dumpMembers, List.length_append] at hdepth
    obtain ⟨p, hstep⟩ := readMembers_step hspace name hvalue.1 hvalue.2 depth done position
      (by omega) (.inr rfl) rest
    exact ⟨p + 1, by rw [htext, hstep, if_pos rfl, putMember_of_new hnew]⟩
  | cons next more ih =>
    obtain ⟨name, value⟩ := m
    have hnew := new_of_distinct distinct
    have hvalue : value.IsPlain ∧ Reads space value :=
      ⟨plain _ List.mem_cons_self, each _ List.mem_cons_self⟩
    have htext : dumpMembers space ((name, value) :: next :: more) ++ '}' :: rest =
        dumpString name ++ ':' :: (space ++ (dump space value ++
          ',' :: (space ++ dumpMembers space (next :: more) ++ '}' :: rest))) := by
      simp only [dumpMembers_cons, List.append_assoc, List.cons_append]
    rw [dumpMembers_cons] at hdepth
    simp only [List.length_append, List.length_cons] at hdepth
    rw [List.forall_mem_cons] at plain each
    obtain ⟨p, hstep⟩ := readMembers_step hspace name hvalue.1 hvalue.2 depth done position
      (by omega) (.inl rfl) (space ++ dumpMembers space (next :: more) ++ '}' :: rest)
    obtain ⟨depth, rfl⟩ := Nat.exists_eq_succ_of_ne_zero (show depth ≠ 0 by omega)
    obtain ⟨q, hrest⟩ := ih plain.2 each.2 depth (done ++ [(name, value)])
      (by rwa [List.append_assoc, List.singleton_append]) (p + 1 + space.length) (by omega)
    obtain ⟨c, tail, hbegins, hc, -⟩ :=
      (begins_dumpMembers space next more).append ('}' :: rest)
    rw [hbegins, List.append_assoc, List.singleton_append] at hrest
    exact ⟨q, by
      rw [htext, hstep, if_neg (by decide), putMember_of_new hnew, List.append_assoc, hbegins,
        skipSpace_append hspace hc, hrest]⟩

/-- What is written of a value is not empty, so there is depth to read it. -/
theorem reads_of_succ (plain : j.IsPlain)
    (h : ∀ depth position rest, 2 * (dump space j).length ≤ depth + 1 → Follows rest →
      ∃ p, readValue (depth + 1) ⟨position, dump space j ++ rest⟩ = .ok (j, ⟨p, rest⟩)) :
    Reads space j := by
  intro depth position rest hdepth hfollows
  obtain ⟨c, tail, hbegins, -⟩ := begins_dump space plain
  have hlength : (dump space j).length = tail.length + 1 := congrArg List.length hbegins
  obtain ⟨depth, rfl⟩ := Nat.exists_eq_succ_of_ne_zero (show depth ≠ 0 by omega)
  exact h depth position rest hdepth hfollows

theorem readValue_quote (depth position : Nat) (rest : List Char) :
    readValue (depth + 1) ⟨position, '"' :: rest⟩ =
      match readString position (position + 1) none [] rest with
      | .ok (s, c) => .ok (.ofLoose s, c)
      | .error e => .error e := by
  rw [readValue]
  rfl

theorem readValue_bracket (depth position : Nat) (hc : isSpace c = false) (hclose : c ≠ ']') :
    readValue (depth + 1) ⟨position, '[' :: c :: rest⟩ =
      readItems depth [] ⟨position + 1, c :: rest⟩ := by
  have hskip : (Cursor.drop ⟨position, '[' :: c :: rest⟩ 1).skipSpace =
      ⟨position + 1, c :: rest⟩ := skipSpace_cons hc _
  rw [readValue]
  simp only [hskip]
  split
  · rename_i heq
    exact absurd (List.cons.inj heq).1 hclose
  · rfl

theorem readValue_brace (depth position : Nat) (hc : isSpace c = false) (hclose : c ≠ '}') :
    readValue (depth + 1) ⟨position, '{' :: c :: rest⟩ =
      readMembers depth [] ⟨position + 1, c :: rest⟩ := by
  have hskip : (Cursor.drop ⟨position, '{' :: c :: rest⟩ 1).skipSpace =
      ⟨position + 1, c :: rest⟩ := skipSpace_cons hc _
  rw [readValue]
  simp only [hskip]
  split
  · rename_i heq
    exact absurd (List.cons.inj heq).1 hclose
  · rfl

/-- A plain document is read back from what is written of it. -/
theorem reads_of_isPlain (hspace : ∀ c ∈ space, isSpace c = true) (h : j.IsPlain) :
    Reads space j := by
  induction h with
  | null => exact reads_of_succ .null fun depth position rest _ _ => ⟨position + 4, rfl⟩
  | bool b =>
    refine reads_of_succ (.bool b) fun depth position rest _ _ => ?_
    cases b with
    | false => exact ⟨position + 5, rfl⟩
    | true => exact ⟨position + 4, rfl⟩
  | int i length =>
    exact reads_of_succ (.int i length) fun depth position rest _ hfollows =>
      readValue_int i length depth position hfollows
  | str s =>
    refine reads_of_succ (.str s) fun depth position rest _ _ => ?_
    obtain ⟨p, hs⟩ := readString_dump s.toList position (position + 1) [] rest
    refine ⟨p, ?_⟩
    rw [dump, dumpString, List.append_assoc, List.singleton_append, List.cons_append,
      readValue_quote, hs]
    dsimp only
    rw [List.reverse_nil, List.nil_append, ofLoose_ofChars, String.ofList_toList]
  | arr items plain ih =>
    refine reads_of_succ (.arr items plain) fun depth position rest hdepth _ => ?_
    rw [dump, List.append_assoc, List.singleton_append, List.cons_append]
    rw [dump, List.length_append, List.length_cons, List.length_singleton] at hdepth
    cases items with
    | nil => exact ⟨position + 2, by rw [readValue]; rfl⟩
    | cons item more =>
      obtain ⟨depth, rfl⟩ := Nat.exists_eq_succ_of_ne_zero (show depth ≠ 0 by omega)
      obtain ⟨c, tail, hbegins, hc, hclose, -⟩ :=
        (begins_dumpItems space (plain item List.mem_cons_self) more).append
          (']' :: rest)
      obtain ⟨p, hitems⟩ :=
        readItems_dump hspace plain ih depth [] (position + 1) rest (by omega)
      refine ⟨p, ?_⟩
      rw [hbegins] at hitems ⊢
      rw [readValue_bracket _ _ hc hclose, hitems, List.reverse_nil, List.nil_append]
  | obj members distinct plain ih =>
    refine reads_of_succ (.obj members distinct plain) fun depth position rest hdepth _ => ?_
    rw [dump, List.append_assoc, List.singleton_append, List.cons_append]
    rw [dump, List.length_append, List.length_cons, List.length_singleton] at hdepth
    cases members with
    | nil => exact ⟨position + 2, by rw [readValue]; rfl⟩
    | cons m more =>
      obtain ⟨depth, rfl⟩ := Nat.exists_eq_succ_of_ne_zero (show depth ≠ 0 by omega)
      obtain ⟨c, tail, hbegins, hc, -, hclose⟩ :=
        (begins_dumpMembers space m more).append ('}' :: rest)
      obtain ⟨p, hmembers⟩ := readMembers_dump hspace plain ih depth []
        (by rwa [List.nil_append]) (position + 1) rest (by omega)
      refine ⟨p, ?_⟩
      rw [hbegins] at hmembers ⊢
      rw [readValue_brace _ _ hc hclose, hmembers, List.nil_append]

/-- A plain document is what its text says, with any blanks after the marks. -/
theorem parse_dump (hspace : ∀ c ∈ space, isSpace c = true) (h : j.IsPlain) :
    parse (dump space j) = .ok j := by
  obtain ⟨c, tail, hbegins, hc, -⟩ := begins_dump space h
  obtain ⟨p, hvalue⟩ :=
    reads_of_isPlain hspace h (2 * (dump space j).length + 1) 0 [] (by omega) follows_nil
  rw [List.append_nil] at hvalue
  rw [parse, show Cursor.skipSpace ⟨0, dump space j⟩ = ⟨0, dump space j⟩ by
    rw [hbegins, skipSpace_cons hc], hvalue]
  rfl

end Json
end WebhookDelivery
