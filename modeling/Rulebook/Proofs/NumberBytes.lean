import Rulebook.Proofs.Lexeme
import Rulebook.Text.Slice
set_option autoImplicit false

/-!
Numbers by their bytes. The characters of a number are of ASCII, and no byte of any other character is an
ASCII digit, a point or a sign; so a number can be scanned byte by byte and ends at the same place.
-/

namespace Rulebook.Token

def isDigitByte (b : UInt8) : Bool := 48 ≤ b && b ≤ 57

/-- How many digits stand from a byte on. -/
def digitRun (bytes : List UInt8) (start : Nat) : Nat :=
  ((bytes.drop start).takeWhile isDigitByte).length

/-- Where digits end that begin at a byte, with a point behind them if a digit follows it. -/
def wholeStop (bytes : List UInt8) (start : Nat) : Nat :=
  let stop := start + digitRun bytes start
  if bytes[stop]? = some 46 ∧ digitRun bytes (stop + 1) ≠ 0 then
    stop + 1 + digitRun bytes (stop + 1)
  else stop

/-- Where a number ends that begins at a byte, its sign being optional. -/
def numberStop? (bytes : List UInt8) (start : Nat) : Option Nat :=
  let whole := if bytes[start]? = some 45 then start + 1 else start
  if digitRun bytes whole = 0 then none else some (wholeStop bytes whole)

theorem drop_bytes (before rest : Text) :
    (Text.bytes (before ++ rest)).drop (Text.byteLength before) = Text.bytes rest := by
  rw [Text.bytes_append, ← Text.length_bytes, List.drop_left]

theorem takeWhile_bytes (t : Text) : ((Text.bytes t).takeWhile isDigitByte).length = digitCount t := by
  induction t with
  | nil => rfl
  | cons c t ih =>
    rw [Text.bytes_cons, digitCount, List.takeWhile_cons]
    obtain ⟨hc, heq⟩ | ⟨hc, b, more, heq, hb⟩ := Text.utf8EncodeChar_cases c
    · have hdigit : isDigitByte (UInt8.ofNat c.toNat) = c.isDigit :=
        ascii_of_forall (P := fun c => isDigitByte (UInt8.ofNat c.toNat) = c.isDigit) (by decide) hc
      rw [heq, List.singleton_append, List.takeWhile_cons, hdigit]
      split
      · rw [List.length_cons, List.length_cons, ih, digitCount]
      · rfl
    · have hbyte : isDigitByte b = false := by
        simp only [isDigitByte, UInt8.le_iff_toNat_le, Bool.and_eq_false_iff,
          decide_eq_false_iff_not]
        exact .inr (by simp; omega)
      have hdigit : ¬ c.isDigit = true := fun hd => by
        have := toNat_lt_of_isDigit hd
        omega
      rw [heq, List.cons_append, List.takeWhile_cons, hbyte, if_neg hdigit]
      rfl

theorem digitRun_bytes (before rest : Text) :
    digitRun (Text.bytes (before ++ rest)) (Text.byteLength before) = digitCount rest := by
  rw [digitRun, drop_bytes, takeWhile_bytes]

/-- A byte of ASCII at a place between characters is a character. -/
theorem getElem?_bytes_iff {a : Char} (ha : a.toNat < 128) (before rest : Text) :
    (Text.bytes (before ++ rest))[Text.byteLength before]? = some (UInt8.ofNat a.toNat) ↔
      rest.head? = some a := by
  have hhead : (Text.bytes (before ++ rest))[Text.byteLength before]? =
      (Text.bytes rest).head? := by
    rw [← drop_bytes before rest, List.head?_drop]
  rw [hhead]
  cases rest with
  | nil => simp [Text.bytes]
  | cons c rest =>
    rw [Text.bytes_cons, List.head?_cons]
    obtain ⟨hc, heq⟩ | ⟨hc, b, more, heq, hb⟩ := Text.utf8EncodeChar_cases c
    · simp only [heq, List.singleton_append, List.head?_cons, Option.some.injEq]
      refine ⟨fun h => ?_, fun h => h ▸ rfl⟩
      have hnat := congrArg UInt8.toNat h
      rw [UInt8.toNat_ofNat', UInt8.toNat_ofNat', Nat.mod_eq_of_lt (by omega),
        Nat.mod_eq_of_lt (by omega)] at hnat
      exact Char.toNat_inj.1 hnat
    · simp only [heq, List.cons_append, List.head?_cons, Option.some.injEq]
      refine iff_of_false (fun h => ?_) fun h => ?_
      · rw [h, UInt8.toNat_ofNat', Nat.mod_eq_of_lt (by omega)] at hb
        omega
      · rw [h] at hc
        omega

theorem numberLength_of_point {t tail : Text} (h : t.drop (digitCount t) = '.' :: tail) :
    numberLength t =
      if digitCount tail = 0 then digitCount t else digitCount t + 1 + digitCount tail := by
  simp only [numberLength, h]

theorem numberLength_of_no_point {t : Text} (h : (t.drop (digitCount t)).head? ≠ some '.') :
    numberLength t = digitCount t := by
  unfold numberLength
  dsimp only
  split
  · rename_i tail htail
    rw [htail] at h
    exact absurd rfl h
  · rfl

theorem wholeStop_bytes (before rest : Text) :
    wholeStop (Text.bytes (before ++ rest)) (Text.byteLength before) =
      Text.byteLength before + numberLength rest := by
  have hdigits : Text.byteLength (rest.take (digitCount rest)) = digitCount rest := by
    rw [digitCount, take_length_takeWhile]
    exact Text.byteLength_of_ascii fun c hc => toNat_lt_of_isDigit (allDigits_takeWhile rest c hc)
  have hsplit : before ++ rest =
      (before ++ rest.take (digitCount rest)) ++ rest.drop (digitCount rest) := by
    rw [List.append_assoc, List.take_append_drop]
  have hstop : Text.byteLength (before ++ rest.take (digitCount rest)) =
      Text.byteLength before + digitCount rest := by rw [Text.byteLength_append, hdigits]
  have hpoint := getElem?_bytes_iff (a := '.') (by decide) (before ++ rest.take (digitCount rest))
    (rest.drop (digitCount rest))
  rw [← hsplit, hstop] at hpoint
  rw [wholeStop, digitRun_bytes]
  by_cases hhead : (rest.drop (digitCount rest)).head? = some '.'
  · obtain ⟨tail, htail⟩ := List.head?_eq_some_iff.1 hhead
    have hrun := digitRun_bytes (before ++ rest.take (digitCount rest) ++ ['.']) tail
    rw [Text.byteLength_append, hstop, List.append_assoc, List.singleton_append, ← htail,
      ← hsplit] at hrun
    have hafter : digitRun (Text.bytes (before ++ rest))
        (Text.byteLength before + digitCount rest + 1) = digitCount tail := hrun
    rw [hafter, numberLength_of_point htail]
    by_cases hzero : digitCount tail = 0
    · rw [if_neg (fun h => h.2 hzero), if_pos hzero]
    · rw [if_pos ⟨hpoint.2 hhead, hzero⟩, if_neg hzero]
      omega
  · rw [if_neg (fun h => hhead (hpoint.1 h.1)), numberLength_of_no_point hhead]

theorem numberLength_cons {c : Char} (hc : c.isDigit = true) (rest : Text) :
    numberLength (c :: rest) = numberLength rest + 1 := by
  have hcount : digitCount (c :: rest) = digitCount rest + 1 := by
    rw [digitCount, List.takeWhile_cons, if_pos hc, List.length_cons, digitCount]
  by_cases hhead : (rest.drop (digitCount rest)).head? = some '.'
  · obtain ⟨tail, htail⟩ := List.head?_eq_some_iff.1 hhead
    have hcons : (c :: rest).drop (digitCount (c :: rest)) = '.' :: tail := by
      rw [hcount, List.drop_succ_cons, htail]
    rw [numberLength_of_point htail, numberLength_of_point hcons, hcount]
    split <;> omega
  · have hcons : ((c :: rest).drop (digitCount (c :: rest))).head? ≠ some '.' := by
      rwa [hcount, List.drop_succ_cons]
    rw [numberLength_of_no_point hhead, numberLength_of_no_point hcons, hcount]

theorem numberStop?_sign (before rest : Text) :
    numberStop? (Text.bytes (before ++ '-' :: rest)) (Text.byteLength before) =
      if digitCount rest = 0 then none
      else some (Text.byteLength before + 1 + numberLength rest) := by
  have hsign := (getElem?_bytes_iff (a := '-') (by decide) before ('-' :: rest)).2 rfl
  have hbyte : (Text.bytes (before ++ '-' :: rest))[Text.byteLength before]? = some 45 := hsign
  have hrun := digitRun_bytes (before ++ ['-']) rest
  have hstop := wholeStop_bytes (before ++ ['-']) rest
  rw [Text.byteLength_append, List.append_assoc, List.singleton_append] at hrun hstop
  have hone : Text.byteLength ['-'] = 1 := rfl
  rw [hone] at hrun hstop
  simp only [numberStop?, hbyte, if_true, hrun, hstop]

theorem numberStop?_digit {c : Char} (hc : c.isDigit = true) (before rest : Text) :
    numberStop? (Text.bytes (before ++ c :: rest)) (Text.byteLength before) =
      some (Text.byteLength before + 1 + numberLength rest) := by
  have hsign := getElem?_bytes_iff (a := '-') (by decide) before (c :: rest)
  have hbyte : (Text.bytes (before ++ c :: rest))[Text.byteLength before]? ≠ some 45 := by
    intro h
    obtain rfl : c = '-' := by simpa using hsign.1 h
    cases hc
  have hcount : digitCount (c :: rest) ≠ 0 := by
    rw [digitCount, List.takeWhile_cons, if_pos hc]
    simp
  simp only [numberStop?, if_neg hbyte, digitRun_bytes, wholeStop_bytes, if_neg hcount,
    numberLength_cons hc]
  congr 1
  omega

/-- A number ends by its bytes where it ends by its characters. -/
theorem numberStop?_of_scan {c : Char} {rest : Text} {more : Nat}
    (h : scan c rest = .token .number more) (before : Text) :
    numberStop? (Text.bytes (before ++ c :: rest)) (Text.byteLength before) =
      some (Text.byteLength before + 1 + more) := by
  obtain ⟨sign, whole, fraction, heq, hsign, hne, hw, -⟩ := scan_lexeme h
  obtain rfl | rfl := hsign
  · cases whole with
    | nil => exact absurd rfl hne
    | cons d digits =>
      obtain ⟨rfl, -⟩ := List.cons.inj heq
      have hc := hw c (List.mem_cons_self ..)
      obtain ⟨-, rfl⟩ := Scan.token.inj (h.symm.trans (@scan_digit c [] rest hc))
      exact numberStop?_digit hc before rest
  · obtain ⟨rfl, -⟩ := List.cons.inj heq
    by_cases hzero : digitCount rest = 0
    · have hscan : scan '-' rest = .unexpected := if_pos hzero
      cases h.symm.trans hscan
    · have hscan : scan '-' rest = .token .number (numberLength rest) := if_neg hzero
      obtain ⟨-, rfl⟩ := Scan.token.inj (h.symm.trans hscan)
      rw [numberStop?_sign, if_neg hzero]

theorem IsDecimal.ascii {w : Text} (h : IsDecimal w) : ∀ c ∈ w, c.toNat < 128 := by
  obtain ⟨sign, whole, fraction, rfl, hsign, -, hw, hf⟩ := h
  intro c hc
  obtain hc | hc | hc : c ∈ sign ∨ c ∈ whole ∨ c ∈ fraction := by simpa using hc
  · obtain rfl | rfl := hsign
    · cases hc
    · obtain rfl := List.mem_singleton.1 hc
      decide
  · exact toNat_lt_of_isDigit (hw c hc)
  · obtain rfl | ⟨digits, rfl, -, hd⟩ := hf
    · cases hc
    · obtain rfl | hc := List.mem_cons.1 hc
      · decide
      · exact toNat_lt_of_isDigit (hd c hc)

end Rulebook.Token
