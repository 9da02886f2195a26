import Mathlib.Data.List.TakeWhile
import WebhookDelivery.Delivery.Address
import WebhookDelivery.Proofs.DispatchKeys
import WebhookDelivery.Proofs.SignedContent

/-!
# WebhookDelivery.Proofs.Addresses

What is written of an internet address is read as that address.

* `Address.readV4?_write`: four octets are read back.
* `Address.readGroups?_joinGroups`, `Address.readGroups?_gap`: groups are read back, those that a
  gap leaves out as zeros; `Address.isGap_longestGap`: the gap that is chosen holds nothing else.
* `Address.Fits.read?_write`: an address that was read is read back from its text, up to its scope,
  on which `Address.isGlobal` does not depend.
-/

namespace WebhookDelivery

namespace Text

theorem hexValue?_lt {c : Char} {n : Nat} (h : hexValue? c = some n) : n < 16 := by
  unfold hexValue? at h
  split at h
  · rename_i hc
    cases h
    have : c.toNat ≤ 57 := UInt32.le_iff_toNat_le.1 hc.2
    omega
  · split at h
    · rename_i hc
      cases h
      have : c.toNat ≤ 102 := UInt32.le_iff_toNat_le.1 hc.2
      omega
    · split at h
      · rename_i hc
        cases h
        have : c.toNat ≤ 70 := UInt32.le_iff_toNat_le.1 hc.2
        omega
      · cases h

theorem isSome_of_mem_hexDigits {width n : Nat} {c : Char} (h : c ∈ hexDigits width n) :
    (hexValue? c).isSome = true := by
  induction width generalizing n with
  | zero => cases h
  | succ width ih =>
    rw [hexDigits, List.mem_append, List.mem_singleton] at h
    rcases h with h | rfl
    · exact ih h
    · rw [hexValue?_hexDigit _ (Nat.mod_lt n (by decide))]
      rfl

end Text

namespace Address

/-! ## Texts in pieces -/

theorem split_ne_nil (mark : Char) (s : List Char) : split mark s ≠ [] := by
  cases s with
  | nil => simp [split]
  | cons c rest =>
    rw [split]
    split
    · simp
    · split <;> simp

theorem split_append (mark : Char) {piece : List Char} (h : mark ∉ piece) (rest : List Char) :
    split mark (piece ++ mark :: rest) = piece :: split mark rest := by
  induction piece with
  | nil => simp [split]
  | cons c piece ih =>
    obtain ⟨hc, hpiece⟩ := not_or.1 (List.mem_cons.not.1 h)
    rw [List.cons_append, split, if_neg (Ne.symm hc), ih hpiece]

theorem split_eq_singleton (mark : Char) {piece : List Char} (h : mark ∉ piece) :
    split mark piece = [piece] := by
  induction piece with
  | nil => rfl
  | cons c piece ih =>
    obtain ⟨hc, hpiece⟩ := not_or.1 (List.mem_cons.not.1 h)
    rw [split, if_neg (Ne.symm hc), ih hpiece]

/-- The pieces hold all that is not a mark. -/
theorem exists_mem_split {mark c : Char} (hc : c ≠ mark) {s : List Char} (h : c ∈ s) :
    ∃ piece ∈ split mark s, c ∈ piece := by
  induction s with
  | nil => cases h
  | cons d rest ih =>
    rw [split]
    rcases List.mem_cons.1 h with rfl | h
    · rw [if_neg hc]
      cases hs : split mark rest with
      | nil => exact absurd hs (split_ne_nil mark rest)
      | cons piece pieces => exact ⟨c :: piece, by simp, by simp⟩
    · obtain ⟨piece, hpiece, hmem⟩ := ih h
      split
      · exact ⟨piece, List.mem_cons_of_mem _ hpiece, hmem⟩
      · cases hs : split mark rest with
        | nil => exact absurd hs (split_ne_nil mark rest)
        | cons first pieces =>
          rw [hs] at hpiece
          rcases List.mem_cons.1 hpiece with rfl | hpiece
          · exact ⟨d :: piece, by simp, by simp [hmem]⟩
          · exact ⟨piece, by simp [hpiece], hmem⟩

theorem of_mapM_eq_some {α β : Type} {f : α → Option β} {xs : List α} {ys : List β}
    (h : xs.mapM f = some ys) :
    ys.length = xs.length ∧ ∀ y ∈ ys, ∃ x ∈ xs, f x = some y := by
  induction xs generalizing ys with
  | nil =>
    cases h
    simp
  | cons x rest ih =>
    rw [List.mapM_cons] at h
    obtain ⟨y, hy, h⟩ := Option.bind_eq_some_iff.1 h
    obtain ⟨ys', hys, h⟩ := Option.bind_eq_some_iff.1 h
    cases h
    obtain ⟨hlength, hread⟩ := ih hys
    refine ⟨by simp [hlength], fun z hz => ?_⟩
    rcases List.mem_cons.1 hz with rfl | hz
    · exact ⟨x, by simp, hy⟩
    · obtain ⟨x', hx', hz⟩ := hread z hz
      exact ⟨x', by simp [hx'], hz⟩

theorem mapM_map_eq_some {α β : Type} {write : α → β} {read : β → Option α} {xs : List α}
    (h : ∀ x ∈ xs, read (write x) = some x) : (xs.map write).mapM read = some xs := by
  induction xs with
  | nil => rfl
  | cons x rest ih =>
    rw [List.map_cons, List.mapM_cons, h x List.mem_cons_self,
      ih fun y hy => h y (List.mem_cons_of_mem x hy)]
    rfl

/-! ## Version 4 -/

theorem readOctet?_toDigits : ∀ n < 256, readOctet? (Nat.toDigits 10 n) = some n := by
  decide +kernel

theorem readOctet?_lt {s : List Char} {n : Nat} (h : readOctet? s = some n) : n < 256 := by
  unfold readOctet? at h
  split at h
  · cases h
  · dsimp only at h
    split at h
    · cases h
      assumption
    · cases h

theorem readOctet?_eq_none {s : List Char} {c : Char} (hc : c.isDigit = false) (h : c ∈ s) :
    readOctet? s = none := by
  have hall : s.all Char.isDigit = false := List.all_eq_false.2 ⟨c, h, by simp [hc]⟩
  rw [readOctet?, hall]
  simp

theorem readV4?_lt {s : List Char} {n : Nat} (h : readV4? s = some n) : n < 2 ^ 32 := by
  unfold readV4? at h
  split at h
  · rename_i a b c d hoctets
    cases h
    have hlt : ∀ m ∈ [a, b, c, d], m < 256 := by
      intro m hm
      obtain ⟨piece, -, hpiece⟩ := (of_mapM_eq_some hoctets).2 m hm
      exact readOctet?_lt hpiece
    simp only [List.forall_mem_cons] at hlt
    omega
  · cases h

/-- A text with a character that is neither a digit nor a point is no address of version 4. -/
theorem readV4?_eq_none {s : List Char} {c : Char} (hc : c.isDigit = false) (hpoint : c ≠ '.')
    (h : c ∈ s) : readV4? s = none := by
  obtain ⟨piece, hpiece, hmem⟩ := exists_mem_split hpoint h
  have hnone : (split '.' s).mapM readOctet? = none :=
    Signature.mapM_eq_none ⟨piece, hpiece, readOctet?_eq_none hc hmem⟩
  rw [readV4?, hnone]

theorem not_mem_toDigits {c : Char} (hc : c.isDigit = false) (n : Nat) : c ∉ Nat.toDigits 10 n := by
  intro h
  have := Nat.isDigit_of_mem_toDigits (by decide) (by decide) h
  rw [hc] at this
  cases this

/-- An address of version 4 is read back. -/
theorem readV4?_write {bits : Nat} (h : bits < 2 ^ 32) :
    readV4? (write (.v4 bits)) = some bits := by
  have hpoint : ∀ n, '.' ∉ Nat.toDigits 10 n := not_mem_toDigits rfl
  have hsplit : split '.' (write (.v4 bits)) =
      [Nat.toDigits 10 (bits / 16777216), Nat.toDigits 10 (bits / 65536 % 256),
        Nat.toDigits 10 (bits / 256 % 256), Nat.toDigits 10 (bits % 256)] := by
    simp only [write, List.append_assoc, List.cons_append]
    rw [split_append _ (hpoint _), split_append _ (hpoint _), split_append _ (hpoint _),
      split_eq_singleton _ (hpoint _)]
  have hread : (split '.' (write (.v4 bits))).mapM readOctet? =
      some [bits / 16777216, bits / 65536 % 256, bits / 256 % 256, bits % 256] := by
    rw [hsplit]
    simp [readOctet?_toDigits (bits / 16777216) (by omega),
      readOctet?_toDigits (bits / 65536 % 256) (by omega),
      readOctet?_toDigits (bits / 256 % 256) (by omega),
      readOctet?_toDigits (bits % 256) (by omega)]
  rw [readV4?, hread]
  exact congrArg some (by omega)

/-! ## Groups of version 6 -/

/-- A number with one more hexadecimal digit. -/
def extend? (n : Nat) (c : Char) : Option Nat := (Text.hexValue? c).map (16 * n + ·)

theorem readGroup?_eq (s : List Char) :
    readGroup? s = if s.isEmpty || 4 < s.length then none else s.foldlM extend? 0 := by
  have hstep : (fun n c =>
      if c.isDigit then some (16 * n + (c.toNat - 48))
      else if 'a' ≤ c ∧ c ≤ 'f' then some (16 * n + (c.toNat - 87))
      else if 'A' ≤ c ∧ c ≤ 'F' then some (16 * n + (c.toNat - 55))
      else none) = extend? := by
    funext n c
    have hdigit : c.isDigit = true ↔ '0' ≤ c ∧ c ≤ '9' := by
      simp [Char.isDigit, Char.le_def]
    simp only [extend?, Text.hexValue?, hdigit]
    split_ifs <;> rfl
  rw [readGroup?, hstep]

theorem foldlM_extend?_lt {s : List Char} {n m : Nat} (h : s.foldlM extend? n = some m) :
    m < (n + 1) * 16 ^ s.length := by
  induction s generalizing n with
  | nil =>
    cases h
    simp
  | cons c rest ih =>
    rw [List.foldlM_cons] at h
    obtain ⟨k, hk, h⟩ := Option.bind_eq_some_iff.1 h
    obtain ⟨d, hd, rfl⟩ := Option.map_eq_some_iff.1 hk
    have hd := Text.hexValue?_lt hd
    calc m < (16 * n + d + 1) * 16 ^ rest.length := ih h
      _ ≤ ((n + 1) * 16) * 16 ^ rest.length := Nat.mul_le_mul_right _ (by omega)
      _ = (n + 1) * 16 ^ (c :: rest).length := by
        rw [List.length_cons, Nat.pow_succ', Nat.mul_assoc]

theorem readGroup?_lt {s : List Char} {n : Nat} (h : readGroup? s = some n) : n < 65536 := by
  rw [readGroup?_eq] at h
  split at h
  · cases h
  · rename_i hlength
    have hn := foldlM_extend?_lt h
    have hle : s.length ≤ 4 := by
      simp only [Bool.or_eq_true, decide_eq_true_eq, not_or] at hlength
      omega
    have hpow : 16 ^ s.length ≤ 16 ^ 4 := Nat.pow_le_pow_right (by decide) hle
    omega

theorem foldlM_hexDigits (width n m : Nat) :
    (Text.hexDigits width n).foldlM extend? m = some (16 ^ width * m + n % 16 ^ width) := by
  induction width generalizing n with
  | zero => simp [Text.hexDigits, Nat.mod_one]
  | succ width ih =>
    have hmod : n % 16 ^ (width + 1) = 16 * (n / 16 % 16 ^ width) + n % 16 := by
      rw [Nat.pow_succ', Nat.mod_mul, Nat.add_comm]
    have hvalue := Text.hexValue?_hexDigit (n % 16) (by omega)
    rw [Text.hexDigits, List.foldlM_append, ih, hmod, Nat.pow_succ']
    simp only [Option.bind_eq_bind, Option.bind_some, List.foldlM_cons, List.foldlM_nil, extend?,
      hvalue, Option.map_some, Option.pure_def]
    rw [Nat.mul_add, Nat.mul_assoc, Nat.add_assoc]

theorem foldlM_dropWhile (s : List Char) :
    (s.dropWhile (· == '0')).foldlM extend? 0 = s.foldlM extend? 0 := by
  induction s with
  | nil => rfl
  | cons c rest ih =>
    rw [List.dropWhile_cons]
    split
    · rename_i hzero
      rw [beq_iff_eq] at hzero
      subst hzero
      rw [ih]
      rfl
    · rfl

/-- A group is read back. -/
theorem readGroup?_writeGroup {n : Nat} (h : n < 65536) : readGroup? (writeGroup n) = some n := by
  have hfold : ((Text.hexDigits 4 n).dropWhile (· == '0')).foldlM extend? 0 = some n := by
    rw [foldlM_dropWhile, foldlM_hexDigits]
    exact congrArg some (by omega)
  have hlength : ((Text.hexDigits 4 n).dropWhile (· == '0')).length ≤ 4 :=
    (List.dropWhile_sublist _).length_le.trans (Text.length_hexDigits 4 n).le
  unfold writeGroup
  split
  · rename_i hempty
    rw [hempty] at hfold
    cases hfold
    decide
  · rename_i hsome
    rw [readGroup?_eq, if_neg, hfold]
    simp only [Bool.or_eq_true, List.isEmpty_iff, decide_eq_true_eq, not_or]
    exact ⟨hsome, by omega⟩

theorem writeGroup_ne_nil (n : Nat) : writeGroup n ≠ [] := by
  unfold writeGroup
  split
  · exact List.cons_ne_nil _ _
  · assumption

theorem isSome_of_mem_writeGroup {n : Nat} {c : Char} (h : c ∈ writeGroup n) :
    (Text.hexValue? c).isSome = true := by
  unfold writeGroup at h
  split at h
  · rw [List.mem_singleton.1 h]
    rfl
  · exact Text.isSome_of_mem_hexDigits ((List.dropWhile_sublist _).subset h)

theorem not_mem_writeGroup {c : Char} (hc : Text.hexValue? c = none) (n : Nat) :
    c ∉ writeGroup n := by
  intro h
  have := isSome_of_mem_writeGroup h
  rw [hc] at this
  cases this

/-! ## Version 6 -/

/-- The pieces of groups that stand beside a gap. -/
def pieces (groups : List Nat) : List (List Char) :=
  if groups = [] then [[]] else groups.map writeGroup

theorem pieces_cons (g : Nat) (rest : List Nat) :
    pieces (g :: rest) = writeGroup g :: rest.map writeGroup := rfl

theorem pieces_ne_nil (groups : List Nat) : pieces groups ≠ [] := by
  cases groups <;> simp [pieces]

theorem besideGap_pieces (groups : List Nat) :
    besideGap (pieces groups) = groups.map writeGroup := by
  cases groups with
  | nil => rfl
  | cons g rest =>
    rw [pieces_cons, besideGap, if_neg]
    · rfl
    · intro h
      exact writeGroup_ne_nil g (List.cons.inj h).1

theorem ne_nil_of_mem_pieces {groups : List Nat} {piece : List Char}
    (h : piece ∈ (pieces groups).tail ∨ piece ∈ (pieces groups).dropLast) : piece ≠ [] := by
  cases groups with
  | nil => simp [pieces] at h
  | cons g rest =>
    have hmem : piece ∈ (g :: rest).map writeGroup :=
      h.elim (fun h => List.mem_of_mem_tail h) fun h => (List.dropLast_sublist _).subset h
    obtain ⟨n, -, rfl⟩ := List.mem_map.1 hmem
    exact writeGroup_ne_nil n

theorem isSome_of_mem_pieces {groups : List Nat} {piece : List Char} {c : Char}
    (h : piece ∈ pieces groups) (hc : c ∈ piece) : (Text.hexValue? c).isSome = true := by
  cases groups with
  | nil =>
    rw [List.mem_singleton.1 h] at hc
    cases hc
  | cons g rest =>
    obtain ⟨n, -, rfl⟩ := List.mem_map.1 (show piece ∈ (g :: rest).map writeGroup from h)
    exact isSome_of_mem_writeGroup hc

theorem joinGroups_cons (g : Nat) {rest : List Nat} (h : rest ≠ []) :
    joinGroups (g :: rest) = writeGroup g ++ ':' :: joinGroups rest := by
  cases rest with
  | nil => exact absurd rfl h
  | cons _ _ => rfl

theorem split_joinGroups_append (groups : List Nat) (rest : List Char) :
    split ':' (joinGroups groups ++ ':' :: rest) = pieces groups ++ split ':' rest := by
  have hmark : ∀ n, ':' ∉ writeGroup n := not_mem_writeGroup rfl
  cases groups with
  | nil => simp [joinGroups, split, pieces]
  | cons g gs =>
    induction gs generalizing g with
    | nil => exact split_append _ (hmark g) rest
    | cons g' gs ih =>
      rw [joinGroups_cons g (List.cons_ne_nil g' gs), List.append_assoc, List.cons_append,
        split_append _ (hmark g), ih g']
      rfl

theorem split_joinGroups (groups : List Nat) : split ':' (joinGroups groups) = pieces groups := by
  have hmark : ∀ n, ':' ∉ writeGroup n := not_mem_writeGroup rfl
  cases groups with
  | nil => rfl
  | cons g gs =>
    induction gs generalizing g with
    | nil => exact split_eq_singleton _ (hmark g)
    | cons g' gs ih =>
      rw [joinGroups_cons g (List.cons_ne_nil g' gs), split_append _ (hmark g), ih g']
      rfl

/-- Parts without a point are the parts of an address. -/
theorem expandLast?_of_no_point {parts : List (List Char)} (h : ∀ part ∈ parts, '.' ∉ part) :
    expandLast? parts = some parts := by
  unfold expandLast?
  split
  · rename_i last hlast
    rw [if_neg]
    simpa using h last (List.mem_of_getLast? hlast)
  · rfl

theorem filter_zipIdx_isEmpty {parts : List (List Char)} (h : ∀ part ∈ parts, part ≠ [])
    (k : Nat) : (parts.zipIdx k).filter (fun p => p.1.isEmpty) = [] := by
  rw [List.filter_eq_nil_iff]
  rintro ⟨part, i⟩ hp
  simpa using h part (List.fst_mem_of_mem_zipIdx hp)

theorem splitAtGap?_of_full {parts : List (List Char)} (h : ∀ part ∈ parts, part ≠ []) :
    splitAtGap? parts = some (parts, none) := by
  have hfilter : ((parts.zipIdx.drop 1).dropLast).filter (fun p => p.1.isEmpty) = [] := by
    rw [List.filter_eq_nil_iff]
    intro p hp
    have := List.filter_eq_nil_iff.1 (filter_zipIdx_isEmpty h 0)
    exact this p (List.mem_of_mem_drop ((List.dropLast_sublist _).subset hp))
  simp only [splitAtGap?, hfilter]

theorem splitAtGap?_of_gap {before after : List (List Char)} (hbefore : before ≠ [])
    (hafter : after ≠ []) (htail : ∀ part ∈ before.tail, part ≠ [])
    (hinit : ∀ part ∈ after.dropLast, part ≠ []) :
    splitAtGap? (before ++ [] :: after) = some (before, some after) := by
  obtain ⟨first, rest, rfl⟩ := List.exists_cons_of_ne_nil hbefore
  obtain ⟨init, last, rfl⟩ := (List.eq_nil_or_concat' after).resolve_left hafter
  rw [List.dropLast_concat] at hinit
  have hparts : (first :: rest ++ [] :: (init ++ [last])).zipIdx =
      (first, 0) :: (rest.zipIdx 1 ++ ([], rest.length + 1) :: init.zipIdx (rest.length + 2) ++
        [(last, rest.length + 2 + init.length)]) := by
    simp [List.zipIdx_append, Nat.add_comm, Nat.add_left_comm]
  have hinner : (((first :: rest ++ [] :: (init ++ [last])).zipIdx.drop 1).dropLast).filter
      (fun p => p.1.isEmpty) = [([], rest.length + 1)] := by
    rw [hparts, List.drop_succ_cons, List.drop_zero, List.dropLast_concat, List.filter_append,
      List.filter_cons_of_pos rfl, filter_zipIdx_isEmpty (show ∀ part ∈ rest, part ≠ [] from htail),
      filter_zipIdx_isEmpty hinit]
    rfl
  simp only [splitAtGap?, hinner]
  simp

/-- Eight groups are read back. -/
theorem readGroups?_joinGroups {groups : List Nat} (hlength : groups.length = 8)
    (hlt : ∀ g ∈ groups, g < 65536) :
    readGroups? (joinGroups groups) = some (groupsValue groups) := by
  have hpieces : split ':' (joinGroups groups) = groups.map writeGroup := by
    rw [split_joinGroups, pieces, if_neg]
    rintro rfl
    cases hlength
  have hpoint : ∀ part ∈ groups.map writeGroup, '.' ∉ part := by
    rintro part hpart
    obtain ⟨n, -, rfl⟩ := List.mem_map.1 hpart
    exact not_mem_writeGroup rfl n
  have hfull : ∀ part ∈ groups.map writeGroup, part ≠ [] := by
    rintro part hpart
    obtain ⟨n, -, rfl⟩ := List.mem_map.1 hpart
    exact writeGroup_ne_nil n
  have hread : (groups.map writeGroup).mapM readGroup? = some groups :=
    mapM_map_eq_some fun g hg => readGroup?_writeGroup (hlt g hg)
  simp only [readGroups?, hpieces, expandLast?_of_no_point hpoint, splitAtGap?_of_full hfull, hread,
    List.length_map, hlength]
  rfl

/-- Groups around a gap are read back, with zeros in the gap. -/
theorem readGroups?_gap {before after : List Nat} (hlength : before.length + after.length < 8)
    (hbefore : ∀ g ∈ before, g < 65536) (hafter : ∀ g ∈ after, g < 65536) :
    readGroups? (joinGroups before ++ [':', ':'] ++ joinGroups after) =
      some (groupsValue
        (before ++ List.replicate (8 - before.length - after.length) 0 ++ after)) := by
  have hsplit : split ':' (joinGroups before ++ [':', ':'] ++ joinGroups after) =
      pieces before ++ [] :: pieces after := by
    rw [List.append_assoc, List.cons_append, split_joinGroups_append, List.cons_append, split,
      if_pos rfl, List.nil_append, split_joinGroups]
  have hcount : ∀ groups : List Nat, (pieces groups).length = max 1 groups.length := by
    intro groups
    cases groups <;> simp [pieces]
  have hpoint : ∀ part ∈ pieces before ++ [] :: pieces after, '.' ∉ part := by
    intro part hpart hmem
    have hsome : (Text.hexValue? '.').isSome = true := by
      rcases List.mem_append.1 hpart with hpart | hpart
      · exact isSome_of_mem_pieces hpart hmem
      · rcases List.mem_cons.1 hpart with rfl | hpart
        · cases hmem
        · exact isSome_of_mem_pieces hpart hmem
    cases hsome
  have hgap : splitAtGap? (pieces before ++ [] :: pieces after) =
      some (pieces before, some (pieces after)) :=
    splitAtGap?_of_gap (pieces_ne_nil before) (pieces_ne_nil after)
      (fun _ h => ne_nil_of_mem_pieces (.inl h)) fun _ h => ne_nil_of_mem_pieces (.inr h)
  have hread : ∀ groups : List Nat, (∀ g ∈ groups, g < 65536) →
      (besideGap (pieces groups)).mapM readGroup? = some groups := by
    intro groups h
    rw [besideGap_pieces]
    exact mapM_map_eq_some fun g hg => readGroup?_writeGroup (h g hg)
  have hparts : (pieces before ++ [] :: pieces after).length =
      max 1 before.length + max 1 after.length + 1 := by
    rw [List.length_append, List.length_cons, hcount, hcount, Nat.add_assoc]
  simp only [readGroups?, hsplit, expandLast?_of_no_point hpoint, hgap, hread before hbefore,
    hread after hafter, hparts]
  rw [if_neg (by omega), if_neg (by omega), if_pos hlength]

/-! ## The gap that is left out -/

/-- Zeros stand in a run that begins at a place and has a length. -/
def IsGap (groups : List Nat) (gap : Nat × Nat) : Prop :=
  gap.1 + gap.2 ≤ groups.length ∧ (groups.drop gap.1).take gap.2 = List.replicate gap.2 0

theorem isGap_takeWhile {groups : List Nat} {i : Nat} (h : i < groups.length) :
    IsGap groups (i, ((groups.drop i).takeWhile (· == 0)).length) := by
  have hprefix := List.takeWhile_prefix (l := groups.drop i) (· == 0)
  refine ⟨?_, ?_⟩
  · have := hprefix.length_le
    rw [List.length_drop] at this
    dsimp only
    omega
  · dsimp only
    rw [← List.prefix_iff_eq_take.1 hprefix]
    refine List.eq_replicate_of_mem fun g hg => ?_
    exact beq_iff_eq.1 (List.all_eq_true.1 List.all_takeWhile g hg)

theorem isGap_longestGap (groups : List Nat) : IsGap groups (longestGap groups) := by
  unfold longestGap
  have hstep : ∀ (places : List Nat) (best : Nat × Nat), (∀ i ∈ places, i < groups.length) →
      IsGap groups best → IsGap groups (places.foldl (fun best i =>
        let length := ((groups.drop i).takeWhile (· == 0)).length
        if best.2 < length then (i, length) else best) best) := by
    intro places
    induction places with
    | nil => exact fun _ _ h => h
    | cons i rest ih =>
      intro best hplaces hbest
      refine ih _ (fun j hj => hplaces j (List.mem_cons_of_mem i hj)) ?_
      dsimp only
      split
      · exact isGap_takeWhile (hplaces i List.mem_cons_self)
      · exact hbest
  refine hstep _ _ (fun i hi => List.mem_range.1 hi) ⟨Nat.zero_le _, rfl⟩

theorem IsGap.eq_append {groups : List Nat} {gap : Nat × Nat} (h : IsGap groups gap) :
    groups.take gap.1 ++ List.replicate gap.2 0 ++ groups.drop (gap.1 + gap.2) = groups := by
  rw [← h.2, List.append_assoc, ← List.drop_drop, List.take_append_drop, List.take_append_drop]

theorem groupsValue_lt {groups : List Nat} (h : ∀ g ∈ groups, g < 65536) :
    groupsValue groups < 65536 ^ groups.length := by
  have hstep : ∀ (gs : List Nat) (n : Nat), (∀ g ∈ gs, g < 65536) →
      gs.foldl (fun n g => 65536 * n + g) n < (n + 1) * 65536 ^ gs.length := by
    intro gs
    induction gs with
    | nil => simp
    | cons g rest ih =>
      intro n hgs
      have hg := hgs g List.mem_cons_self
      calc rest.foldl (fun n g => 65536 * n + g) (65536 * n + g)
          < (65536 * n + g + 1) * 65536 ^ rest.length :=
            ih _ fun g' h' => hgs g' (List.mem_cons_of_mem g h')
        _ ≤ ((n + 1) * 65536) * 65536 ^ rest.length := Nat.mul_le_mul_right _ (by omega)
        _ = (n + 1) * 65536 ^ (g :: rest).length := by
            rw [List.length_cons, Nat.pow_succ', Nat.mul_assoc]
  simpa [groupsValue] using hstep groups 0 h

theorem groupsValue_groups {bits : Nat} (h : bits < 2 ^ 128) :
    groupsValue (groups bits) = bits := by
  have hgroups : groups bits = [bits / 65536 ^ 7 % 65536, bits / 65536 ^ 6 % 65536,
      bits / 65536 ^ 5 % 65536, bits / 65536 ^ 4 % 65536, bits / 65536 ^ 3 % 65536,
      bits / 65536 ^ 2 % 65536, bits / 65536 ^ 1 % 65536, bits / 65536 ^ 0 % 65536] := rfl
  rw [hgroups]
  simp only [groupsValue, List.foldl_cons, List.foldl_nil]
  omega

/-- An address of version 6 is read back. -/
theorem readGroups?_writeGroups {bits : Nat} (h : bits < 2 ^ 128) :
    readGroups? (writeGroups bits) = some bits := by
  have hlength : (groups bits).length = 8 := by simp [groups]
  have hlt : ∀ g ∈ groups bits, g < 65536 := by
    intro g hg
    obtain ⟨i, -, rfl⟩ := List.mem_map.1 hg
    exact Nat.mod_lt _ (by decide)
  have hgap := isGap_longestGap (groups bits)
  have heq := hgap.eq_append
  have hle := hgap.1
  unfold writeGroups
  dsimp only
  split
  · rw [readGroups?_joinGroups hlength hlt, groupsValue_groups h]
  · rename_i hlong
    have htake : ((groups bits).take (longestGap (groups bits)).1).length =
        (longestGap (groups bits)).1 := by
      rw [List.length_take]
      omega
    have hdrop : ((groups bits).drop
        ((longestGap (groups bits)).1 + (longestGap (groups bits)).2)).length =
        8 - (longestGap (groups bits)).1 - (longestGap (groups bits)).2 := by
      rw [List.length_drop]
      omega
    rw [readGroups?_gap (by omega) (fun g hg => hlt g (List.mem_of_mem_take hg))
      fun g hg => hlt g (List.mem_of_mem_drop hg), htake, hdrop]
    have hcount : 8 - (longestGap (groups bits)).1 -
        (8 - (longestGap (groups bits)).1 - (longestGap (groups bits)).2) =
          (longestGap (groups bits)).2 := by omega
    rw [hcount, heq, groupsValue_groups h]

theorem forall_mem_lt_of_mapM {parts : List (List Char)} {gs : List Nat}
    (h : parts.mapM readGroup? = some gs) : ∀ g ∈ gs, g < 65536 := by
  intro g hg
  obtain ⟨part, -, hpart⟩ := (of_mapM_eq_some h).2 g hg
  exact readGroup?_lt hpart

theorem readGroups?_lt {s : List Char} {n : Nat} (h : readGroups? s = some n) : n < 2 ^ 128 := by
  have height : ∀ gs : List Nat, gs.length = 8 → (∀ g ∈ gs, g < 65536) →
      groupsValue gs < 2 ^ 128 := by
    intro gs hlength hlt
    have hvalue := groupsValue_lt hlt
    rw [hlength] at hvalue
    omega
  unfold readGroups? at h
  dsimp only at h
  split at h
  · cases h
  · split at h
    · cases h
    · split at h
      · cases h
      · split at h
        · cases h
        · -- without a gap
          split at h
          · rename_i before _ hlength
            obtain ⟨gs, hread, rfl⟩ := Option.map_eq_some_iff.1 h
            exact height gs ((of_mapM_eq_some hread).1.trans hlength) (forall_mem_lt_of_mapM hread)
          · cases h
        · split at h
          · rename_i high low hhigh hlow
            split at h
            · cases h
              refine height _ ?_ ?_
              · simp only [List.length_append, List.length_replicate]
                omega
              · intro g hg
                rcases List.mem_append.1 hg with hg | hg
                · rcases List.mem_append.1 hg with hg | hg
                  · exact forall_mem_lt_of_mapM hhigh g hg
                  · rw [List.eq_of_mem_replicate hg]
                    decide
                · exact forall_mem_lt_of_mapM hlow g hg
            · cases h
          · cases h

/-! ## Addresses -/

/-- An address without its scope. -/
def unscoped : Address → Address
  | .v4 bits => .v4 bits
  | .v6 bits _ => .v6 bits none

theorem isGlobal_unscoped (a : Address) : a.unscoped.isGlobal = a.isGlobal := by
  cases a <;> rfl

theorem mem_joinGroups {groups : List Nat} {c : Char} (h : c ∈ joinGroups groups) :
    c = ':' ∨ (Text.hexValue? c).isSome = true := by
  induction groups with
  | nil => cases h
  | cons g rest ih =>
    by_cases hrest : rest = []
    · subst hrest
      exact .inr (isSome_of_mem_writeGroup h)
    · rw [joinGroups_cons g hrest, List.mem_append, List.mem_cons] at h
      rcases h with h | h | h
      · exact .inr (isSome_of_mem_writeGroup h)
      · exact .inl h
      · exact ih h

theorem mem_writeGroups {bits : Nat} {c : Char} (h : c ∈ writeGroups bits) :
    c = ':' ∨ (Text.hexValue? c).isSome = true := by
  unfold writeGroups at h
  dsimp only at h
  split at h
  · exact mem_joinGroups h
  · rw [List.mem_append, List.mem_append] at h
    rcases h with (h | h) | h
    · exact mem_joinGroups h
    · simp only [List.mem_cons, List.not_mem_nil, or_false, or_self] at h
      exact .inl h
    · exact mem_joinGroups h

theorem not_mem_writeGroups {c : Char} (hcolon : c ≠ ':') (hc : Text.hexValue? c = none)
    (bits : Nat) : c ∉ writeGroups bits := by
  intro h
  rcases mem_writeGroups h with h | h
  · exact hcolon h
  · rw [hc] at h
    cases h

theorem colon_mem_writeGroups (bits : Nat) : ':' ∈ writeGroups bits := by
  unfold writeGroups
  dsimp only
  split
  · have hjoin : joinGroups (groups bits) = writeGroup (bits / Nat.pow 65536 7 % 65536) ++
        ':' :: joinGroups (groups bits).tail := rfl
    rw [hjoin]
    exact List.mem_append_right _ List.mem_cons_self
  · simp

/-- The bits of an address are those of its version. -/
def Fits : Address → Prop
  | .v4 bits => bits < 2 ^ 32
  | .v6 bits _ => bits < 2 ^ 128

theorem fits_of_read? {s : List Char} {a : Address} (h : read? s = some a) : a.Fits := by
  unfold read? at h
  split at h
  · rename_i n hread
    cases h
    exact readV4?_lt hread
  · unfold readV6? at h
    dsimp only at h
    split at h
    · cases h
    · split at h
      · obtain ⟨n, hread, rfl⟩ := Option.map_eq_some_iff.1 h
        exact readGroups?_lt hread
      · split at h
        · cases h
        · obtain ⟨n, hread, rfl⟩ := Option.map_eq_some_iff.1 h
          exact readGroups?_lt hread

theorem read?_write_v4 {bits : Nat} (h : bits < 2 ^ 32) :
    read? (write (.v4 bits)) = some (.v4 bits) := by
  rw [read?, readV4?_write h]

theorem read?_writeGroups {bits : Nat} (h : bits < 2 ^ 128) :
    read? (writeGroups bits) = some (.v6 bits none) := by
  have hslash : (writeGroups bits).contains '/' = false := by
    simpa using not_mem_writeGroups (by decide) rfl bits
  have hscope : ∀ c ∈ writeGroups bits, (c != '%') = true := by
    intro c hc
    rw [bne_iff_ne]
    rintro rfl
    exact not_mem_writeGroups (by decide) rfl bits hc
  have hv4 : readV4? (writeGroups bits) = none :=
    readV4?_eq_none rfl (by decide) (colon_mem_writeGroups bits)
  simp only [read?, hv4, readV6?, hslash, List.dropWhile_eq_nil_iff.2 hscope,
    List.takeWhile_eq_self_iff.2 hscope, readGroups?_writeGroups h]
  rfl

/-- The text of an address, up to its scope, is read as that address without its scope. -/
theorem Fits.read?_write {a : Address} (h : a.Fits) :
    read? (a.write.takeWhile (· != '%')) = some a.unscoped := by
  have hplain : ∀ {s : List Char} (rest : List Char), '%' ∉ s →
      (s ++ rest).takeWhile (· != '%') = s ++ rest.takeWhile (· != '%') := by
    intro s rest hs
    refine List.takeWhile_append_of_pos fun c hc => ?_
    rw [bne_iff_ne]
    rintro rfl
    exact hs hc
  cases a with
  | v4 bits =>
    have hdigits : ∀ n, '%' ∉ Nat.toDigits 10 n := not_mem_toDigits rfl
    have hmark : '%' ∉ write (.v4 bits) := by
      simp [write, hdigits]
    have htake := hplain [] hmark
    rw [List.append_nil, List.takeWhile_nil, List.append_nil] at htake
    rw [htake]
    exact read?_write_v4 h
  | v6 bits scope =>
    have hmark : '%' ∉ writeGroups bits := not_mem_writeGroups (by decide) rfl bits
    have htake : (write (.v6 bits scope)).takeWhile (· != '%') = writeGroups bits := by
      cases scope with
      | none => simpa [write] using hplain [] hmark
      | some scope => simpa [write] using hplain ('%' :: scope) hmark
    rw [htake]
    exact read?_writeGroups h

end Address
end WebhookDelivery
