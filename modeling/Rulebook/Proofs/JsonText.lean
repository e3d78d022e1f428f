import Rulebook.Json.Reader
import Rulebook.Json.Writer
import Rulebook.Proofs.Lexeme
set_option autoImplicit false

/-!
Compact JSON text reads back as the value it was written from, for every value whose numbers are spelled
as JSON spells them. Strings come back from their escapes, halves of surrogate pairs included.
-/

namespace Rulebook.Json

open Token (AllDigits takeWhile_append_of_head)

/-! ### Strings -/

theorem hexUnit?_control : ∀ n < 32,
    hexUnit? '0' '0' (hexDigit (n / 16)) (hexDigit (n % 16)) = some n := by decide

theorem pieces_char {c : Char} {t rest : Text} {ps : List Piece} (hq : c ≠ '"') (hb : c ≠ '\\')
    (hc : 32 ≤ c.toNat) (h : pieces t = some (ps, rest)) :
    pieces (c :: t) = some (.char c :: ps, rest) := by
  rw [pieces.eq_def]
  simp [hq, hb, Nat.not_lt.2 hc, h]

theorem pieces_unescape {e x : Char} {t rest : Text} {ps : List Piece} (he : unescape? e = some x)
    (hu : e ≠ 'u') (h : pieces t = some (ps, rest)) :
    pieces ('\\' :: e :: t) = some (.char x :: ps, rest) := by
  rw [pieces.eq_def]
  simp [hu, he, h]

theorem pieces_unit {a b c d : Char} {n : Nat} {t rest : Text} {ps : List Piece}
    (hn : hexUnit? a b c d = some n) (h : pieces t = some (ps, rest)) :
    pieces ('\\' :: 'u' :: a :: b :: c :: d :: t) = some (.unit n :: ps, rest) := by
  rw [pieces.eq_def]
  simp [hn, h]

/-- The escapes of a character are one piece, which joins as that character. -/
theorem pieces_escape (c : Char) {t rest : Text} {ps : List Piece}
    (h : pieces t = some (ps, rest)) : ∃ p, pieces (escape c ++ t) = some (p :: ps, rest) ∧
      joinPieces (p :: ps) = (joinPieces ps).map (c :: ·) := by
  have hshort : ∀ e, unescape? e = some c → e ≠ 'u' → ∃ p,
      pieces (['\\', e] ++ t) = some (p :: ps, rest) ∧
        joinPieces (p :: ps) = (joinPieces ps).map (c :: ·) :=
    fun e he hu => ⟨.char c, pieces_unescape he hu h, rfl⟩
  have hcode : ∀ n, c.toNat = n → c = Char.ofNat n := by
    rintro n rfl
    exact c.ofNat_toNat.symm
  unfold escape
  split
  · rename_i hc
    exact hshort '"' (by rw [hc]; rfl) (by decide)
  split
  · rename_i hc
    exact hshort '\\' (by rw [hc]; rfl) (by decide)
  split
  · rename_i hc
    exact hshort 'b' (by rw [hcode 8 hc]; rfl) (by decide)
  split
  · rename_i hc
    exact hshort 't' (by rw [hcode 9 hc]; rfl) (by decide)
  split
  · rename_i hc
    exact hshort 'n' (by rw [hcode 10 hc]; rfl) (by decide)
  split
  · rename_i hc
    exact hshort 'f' (by rw [hcode 12 hc]; rfl) (by decide)
  split
  · rename_i hc
    exact hshort 'r' (by rw [hcode 13 hc]; rfl) (by decide)
  split
  · rename_i hc
    have hhigh : isHighHalf c.toNat = false := by
      simp [isHighHalf]
      omega
    have hlow : isLowHalf c.toNat = false := by
      simp [isLowHalf]
      omega
    refine ⟨.unit c.toNat, pieces_unit (hexUnit?_control _ hc) h, ?_⟩
    rw [joinPieces.eq_def]
    simp [hhigh, hlow]
  · rename_i hq hb _ _ _ _ _ hc
    exact ⟨.char c, pieces_char hq hb (Nat.not_lt.1 hc) h, rfl⟩

theorem pieces_text (t rest : Text) :
    ∃ ps, pieces (t.flatMap escape ++ '"' :: rest) = some (ps, rest) ∧ joinPieces ps = some t := by
  induction t with
  | nil => exact ⟨[], by rw [List.flatMap_nil, List.nil_append, pieces.eq_def]; rfl, rfl⟩
  | cons c t ih =>
    obtain ⟨ps, hps, ht⟩ := ih
    obtain ⟨p, hp, hj⟩ := pieces_escape c hps
    refine ⟨p :: ps, ?_, ?_⟩
    · rw [List.flatMap_cons, List.append_assoc, hp]
    · rw [hj, ht]
      rfl

/-- Behind its opening quote a string is read through its closing one. -/
theorem stringText_eq (s : Option Text) :
    ∃ body, stringText s = '"' :: body ∧
      ∀ rest, readString (body ++ rest) = some (s, rest) := by
  cases s with
  | none =>
    refine ⟨"\\ud800\"".toList, rfl, fun rest => ?_⟩
    have hps : pieces ('"' :: rest) = some ([], rest) := by
      rw [pieces.eq_def]
      rfl
    have hunit := pieces_unit (n := 0xD800) (a := 'd') (b := '8') (c := '0') (d := '0') rfl hps
    have htext : "\\ud800\"".toList ++ rest =
        '\\' :: 'u' :: 'd' :: '8' :: '0' :: '0' :: '"' :: rest := rfl
    rw [htext, readString, hunit]
    rfl
  | some t =>
    refine ⟨t.flatMap escape ++ ['"'], rfl, fun rest => ?_⟩
    obtain ⟨ps, hps, hj⟩ := pieces_text t rest
    rw [List.append_assoc, List.singleton_append, readString, hps, ← hj]
    rfl

/-! ### Numbers -/

/-- The digits before the point begin with no zero they do not need, and the exponent has digits. -/
structure Numeral.Proper (n : Numeral) : Prop where
  whole : n.whole = ['0'] ∨ n.whole ≠ [] ∧ n.whole.head? ≠ some '0' ∧ AllDigits n.whole
  fraction : AllDigits n.fraction
  exponent : ∀ e ∈ n.exponent, e.2 ≠ [] ∧ AllDigits e.2

/-- What follows goes on with no number. -/
def Stops (rest : Text) : Prop :=
  ∀ c ∈ rest.head?, c.isDigit = false ∧ c ≠ '.' ∧ c ≠ 'e' ∧ c ≠ 'E'

theorem readDigits_append {digits rest : Text} (hne : digits ≠ []) (hd : AllDigits digits)
    (hr : ∀ c ∈ rest.head?, c.isDigit = false) :
    readDigits (digits ++ rest) = some (digits, rest) := by
  have htake : (digits ++ rest).takeWhile Char.isDigit = digits := takeWhile_append_of_head hd hr
  have hdrop : (digits ++ rest).dropWhile Char.isDigit = rest := by
    rw [List.dropWhile_append_of_pos hd]
    cases rest with
    | nil => rfl
    | cons c tail => rw [List.dropWhile_cons_of_neg (by simp [hr c (by simp)])]
  simp [readDigits, htake, hdrop, hne]

theorem readWhole_append {whole rest : Text}
    (h : whole = ['0'] ∨ whole ≠ [] ∧ whole.head? ≠ some '0' ∧ AllDigits whole)
    (hr : ∀ c ∈ rest.head?, c.isDigit = false) : readWhole (whole ++ rest) = some (whole, rest) := by
  obtain rfl | ⟨hne, hzero, hd⟩ := h
  · cases rest with
    | nil => rfl
    | cons c tail => simp [readWhole, hr c (by simp)]
  · have hread := readDigits_append hne hd hr
    unfold readWhole
    split
    · rename_i r heq
      cases whole with
      | nil => exact absurd rfl hne
      | cons c more =>
        obtain ⟨rfl, -⟩ := List.cons.inj heq
        exact absurd rfl hzero
    · exact hread

theorem readFraction_of_head {t : Text} (h : ∀ c ∈ t.head?, c ≠ '.') :
    readFraction t = some ([], t) := by
  unfold readFraction
  split
  · exact absurd rfl (h '.' (by simp))
  · rfl

theorem readFraction_append {fraction rest : Text} (hf : AllDigits fraction)
    (hr : ∀ c ∈ rest.head?, c.isDigit = false ∧ c ≠ '.') :
    readFraction ((if fraction.isEmpty then [] else '.' :: fraction) ++ rest) =
      some (fraction, rest) := by
  cases fraction with
  | nil => exact readFraction_of_head fun c hc => (hr c hc).2
  | cons d digits =>
    have hread := readDigits_append (by simp) hf fun c hc => (hr c hc).1
    simpa [readFraction] using hread

theorem readExponent_of_stops {rest : Text} (h : Stops rest) :
    readExponent rest = some (none, rest) := by
  cases rest with
  | nil => rfl
  | cons c tail => simp [readExponent, h c (by simp)]

theorem readExponent_append (negative : Bool) {digits rest : Text} (hne : digits ≠ [])
    (hd : AllDigits digits) (hr : ∀ c ∈ rest.head?, c.isDigit = false) :
    readExponent ('e' :: ((if negative then ['-'] else []) ++ digits ++ rest)) =
      some (some (negative, digits), rest) := by
  have hread := readDigits_append hne hd hr
  cases negative with
  | true => simp [readExponent, hread]
  | false =>
    have hsign : ∀ c ∈ (digits ++ rest).head?, c ≠ '-' ∧ c ≠ '+' := by
      cases digits with
      | nil => exact absurd rfl hne
      | cons d more =>
        intro c hc
        obtain rfl : d = c := by simpa using hc
        have hdigit := hd d (by simp)
        constructor <;> rintro rfl <;> exact absurd hdigit (by decide)
    simp only [Bool.false_eq_true, if_false, List.nil_append, readExponent]
    rw [if_pos (by decide)]
    split
    · rename_i heq
      exact absurd rfl (hsign '-' (by rw [heq]; rfl)).1
    · rename_i heq
      exact absurd rfl (hsign '+' (by rw [heq]; rfl)).2
    · rw [hread]
      rfl

theorem Numeral.Proper.whole_head {n : Numeral} (h : n.Proper) :
    ∃ c more, n.whole = c :: more ∧ c.isDigit = true := by
  obtain hw | ⟨hne, -, hd⟩ := h.whole
  · exact ⟨'0', [], hw, by decide⟩
  · obtain ⟨c, more, hw⟩ := List.exists_cons_of_ne_nil hne
    exact ⟨c, more, hw, hd c (by simp [hw])⟩

def Numeral.exponentText (n : Numeral) : Text :=
  match n.exponent with
  | none => []
  | some (negative, digits) => 'e' :: (if negative then ['-'] else []) ++ digits

theorem readExponent_exponentText {n : Numeral} (h : n.Proper) {rest : Text} (hr : Stops rest) :
    readExponent (n.exponentText ++ rest) = some (n.exponent, rest) := by
  cases he : n.exponent with
  | none =>
    rw [Numeral.exponentText, he]
    exact readExponent_of_stops hr
  | some e =>
    obtain ⟨hne, hd⟩ := h.exponent e (by simp [he])
    rw [Numeral.exponentText, he]
    exact readExponent_append e.1 hne hd fun c hc => (hr c hc).1

theorem exponentText_head {n : Numeral} {rest : Text} (hr : Stops rest) :
    ∀ c ∈ (n.exponentText ++ rest).head?, c.isDigit = false ∧ c ≠ '.' := by
  unfold Numeral.exponentText
  cases n.exponent with
  | none => exact fun c hc => ⟨(hr c hc).1, (hr c hc).2.1⟩
  | some e =>
    intro c hc
    obtain rfl : 'e' = c := by simpa using hc
    decide

theorem readNumeral_parts (negative : Bool) {whole fraction : Text}
    {exponent : Option (Bool × Text)} {t u v w : Text} (ht : ∀ c ∈ t.head?, c ≠ '-')
    (hw : readWhole t = some (whole, u)) (hf : readFraction u = some (fraction, v))
    (he : readExponent v = some (exponent, w)) :
    readNumeral ((if negative then ['-'] else []) ++ t) =
      some (⟨negative, whole, fraction, exponent⟩, w) := by
  cases negative with
  | true => simp [readNumeral, hw, hf, he]
  | false =>
    simp only [Bool.false_eq_true, if_false, List.nil_append, readNumeral]
    split
    · exact absurd rfl (ht '-' (by simp))
    · simp [hw, hf, he]

theorem readNumeral_text {n : Numeral} (h : n.Proper) {rest : Text} (hr : Stops rest) :
    readNumeral (n.text ++ rest) = some (n, rest) := by
  obtain ⟨c, more, hw, hc⟩ := h.whole_head
  have hexponent := readExponent_exponentText h hr
  have hfraction := readFraction_append h.fraction (exponentText_head (n := n) hr)
  have hhead : ∀ c ∈ ((if n.fraction.isEmpty then [] else '.' :: n.fraction) ++
      (n.exponentText ++ rest)).head?, c.isDigit = false := by
    cases n.fraction with
    | nil => exact fun c hc => (exponentText_head hr c hc).1
    | cons d digits =>
      intro c hc
      obtain rfl : '.' = c := by simpa using hc
      rfl
  have htext : n.text ++ rest = (if n.negative then ['-'] else []) ++ (n.whole ++
      ((if n.fraction.isEmpty then [] else '.' :: n.fraction) ++ (n.exponentText ++ rest))) := by
    have happend : n.text = (if n.negative then ['-'] else []) ++ n.whole ++
        (if n.fraction.isEmpty then [] else '.' :: n.fraction) ++ n.exponentText := rfl
    simp only [happend, List.append_assoc]
  rw [htext]
  refine readNumeral_parts n.negative ?_ (readWhole_append h.whole hhead) hfraction hexponent
  intro d hd
  obtain rfl : c = d := by simpa [hw] using hd
  rintro rfl
  exact absurd hc (by decide)

/-! ### Values -/

/-- All numbers are spelled as JSON spells them. -/
inductive Proper : Json → Prop
  | null : Proper .null
  | bool (b : Bool) : Proper (.bool b)
  | number {n : Numeral} : n.Proper → Proper (.number n)
  | string (t : Option Text) : Proper (.string t)
  | array {items : List Json} : (∀ j ∈ items, Proper j) → Proper (.array items)
  | object {members : List (Option Text × Json)} : (∀ m ∈ members, Proper m.2) →
      Proper (.object members)

/-- Before anything that goes on with no number, the text of the value is read as the value. -/
def ReadsBack (j : Json) : Prop :=
  ∀ fuel rest, j.text.length ≤ fuel → Stops rest →
    readValue fuel (j.text ++ rest) = some (j, rest)

/-- What begins a number begins no other value, and is no blank and no bracket that ends a list. -/
theorem not_mem_of_numeral {c : Char} (h : c = '-' ∨ c.isDigit = true) :
    isBlank c = false ∧ c ∉ ['"', '[', ']', '\x7b', 'n', 't', 'f'] := by
  rcases h with rfl | h
  · decide
  · exact Token.ascii_of_forall (P := fun c => c.isDigit = true →
      isBlank c = false ∧ c ∉ ['"', '[', ']', '\x7b', 'n', 't', 'f']) (by decide)
      (Token.toNat_lt_of_isDigit h) h

theorem Numeral.Proper.text_head {n : Numeral} (h : n.Proper) :
    ∃ c more, n.text = c :: more ∧ (c = '-' ∨ c.isDigit = true) := by
  obtain ⟨c, more, hw, hc⟩ := h.whole_head
  unfold Numeral.text
  cases n.negative with
  | true => exact ⟨'-', _, rfl, .inl rfl⟩
  | false => exact ⟨c, _, by rw [hw]; rfl, .inr hc⟩

/-- The text of a value begins with no blank and with no bracket that ends a list. -/
theorem text_head {j : Json} (h : j.Proper) :
    ∃ c more, j.text = c :: more ∧ isBlank c = false ∧ c ≠ ']' := by
  cases h with
  | null => exact ⟨'n', _, rfl, by decide⟩
  | bool b => cases b <;> exact ⟨_, _, rfl, by decide⟩
  | number hn =>
    obtain ⟨c, more, ht, hc⟩ := hn.text_head
    obtain ⟨hblank, hmem⟩ := not_mem_of_numeral hc
    refine ⟨c, more, ht, hblank, ?_⟩
    rintro rfl
    simp at hmem
  | string t =>
    obtain ⟨body, ht, -⟩ := stringText_eq t
    exact ⟨'"', body, ht, by decide⟩
  | array => exact ⟨'[', _, rfl, by decide⟩
  | object => exact ⟨'\x7b', _, rfl, by decide⟩

theorem skip_cons {c : Char} (h : isBlank c = false) (t : Text) : skip (c :: t) = c :: t :=
  List.dropWhile_cons_of_neg (by simp [h])

theorem skip_text {j : Json} (h : j.Proper) (rest : Text) :
    skip (j.text ++ rest) = j.text ++ rest := by
  obtain ⟨c, more, ht, hc, -⟩ := text_head h
  rw [ht, List.cons_append, skip_cons hc]

theorem stops_cons {c : Char} (h : c.isDigit = false ∧ c ≠ '.' ∧ c ≠ 'e' ∧ c ≠ 'E') (t : Text) :
    Stops (c :: t) := by
  intro d hd
  obtain rfl : c = d := by simpa using hd
  exact h

theorem stops_nil : Stops [] := by simp [Stops]

theorem readsBack_number {n : Numeral} (h : n.Proper) : ReadsBack (.number n) := by
  intro fuel rest hfuel hr
  have hread := readNumeral_text h hr
  obtain ⟨c, more, ht, hc⟩ := h.text_head
  have hmem := (not_mem_of_numeral hc).2
  simp only [List.mem_cons, List.not_mem_nil, not_or] at hmem
  rw [text, ht] at hfuel ⊢
  rw [ht] at hread
  cases fuel with
  | zero => simp at hfuel
  | succ fuel =>
    rw [List.cons_append] at hread ⊢
    simp [readValue, hmem, hread]

theorem readsBack_string (t : Option Text) : ReadsBack (.string t) := by
  intro fuel rest hfuel hr
  obtain ⟨body, ht, hread⟩ := stringText_eq t
  rw [text, ht] at hfuel ⊢
  cases fuel with
  | zero => simp at hfuel
  | succ fuel => simp [readValue, hread]

theorem itemsText_head {items : List Json} (hne : items ≠ []) (hp : ∀ j ∈ items, j.Proper) :
    ∃ c more, itemsText items = c :: more ∧ isBlank c = false ∧ c ≠ ']' := by
  cases items with
  | nil => exact absurd rfl hne
  | cons j items =>
    obtain ⟨c, more, ht, hc⟩ := text_head (hp j (by simp))
    cases items with
    | nil => exact ⟨c, more, ht, hc⟩
    | cons k rest => exact ⟨c, _, by rw [itemsText, ht]; rfl, hc⟩

theorem readItems_text {items : List Json} (hne : items ≠ []) (hp : ∀ j ∈ items, j.Proper)
    (hr : ∀ j ∈ items, ReadsBack j) {fuel : Nat} (hfuel : (itemsText items).length < fuel)
    (rest : Text) : readItems fuel (itemsText items ++ ']' :: rest) = some (items, rest) := by
  induction items generalizing fuel with
  | nil => exact absurd rfl hne
  | cons j items ih =>
    cases fuel with
    | zero => omega
    | succ fuel =>
      cases items with
      | nil =>
        rw [itemsText] at hfuel ⊢
        have hj := hr j (by simp) fuel (']' :: rest) (by omega) (stops_cons (by decide) rest)
        have hclose : skip (']' :: rest) = ']' :: rest := skip_cons (by decide) rest
        simp [readItems, hj, hclose]
      | cons k more =>
        have htext : itemsText (j :: k :: more) = j.text ++ ',' :: itemsText (k :: more) := rfl
        rw [htext, List.length_append, List.length_cons] at hfuel
        have hp' : ∀ x ∈ k :: more, x.Proper := fun x hx => hp x (by simp [hx])
        have hmore : readItems fuel (itemsText (k :: more) ++ ']' :: rest) =
            some (k :: more, rest) :=
          ih (by simp) hp' (fun x hx => hr x (by simp [hx])) (by omega)
        have hj := hr j (by simp) fuel (',' :: (itemsText (k :: more) ++ ']' :: rest)) (by omega)
          (stops_cons (by decide) _)
        have hcomma : skip (',' :: (itemsText (k :: more) ++ ']' :: rest)) =
            ',' :: (itemsText (k :: more) ++ ']' :: rest) := skip_cons (by decide) _
        obtain ⟨c, tail, hc, hblank, -⟩ := itemsText_head (List.cons_ne_nil k more) hp'
        have hnext : skip (itemsText (k :: more) ++ ']' :: rest) =
            itemsText (k :: more) ++ ']' :: rest := by
          rw [hc]
          exact skip_cons hblank _
        simp [readItems, htext, hj, hcomma, hnext, hmore]

theorem membersText_head {members : List (Option Text × Json)} (hne : members ≠ []) :
    ∃ more, membersText members = '"' :: more := by
  cases members with
  | nil => exact absurd rfl hne
  | cons m members =>
    obtain ⟨key, j⟩ := m
    obtain ⟨body, hkey, -⟩ := stringText_eq key
    cases members with
    | nil => exact ⟨_, by rw [membersText, hkey]; rfl⟩
    | cons n rest => exact ⟨_, by rw [membersText, hkey]; rfl⟩

theorem readMembers_text {members : List (Option Text × Json)} (hne : members ≠ [])
    (hp : ∀ m ∈ members, m.2.Proper) (hr : ∀ m ∈ members, ReadsBack m.2) {fuel : Nat}
    (hfuel : (membersText members).length < fuel) (rest : Text) :
    readMembers fuel (membersText members ++ '\x7d' :: rest) = some (members, rest) := by
  induction members generalizing fuel with
  | nil => exact absurd rfl hne
  | cons m members ih =>
    obtain ⟨key, j⟩ := m
    obtain ⟨body, hkey, hbody⟩ := stringText_eq key
    have hvalue (t : Text) : skip (':' :: t) = ':' :: t := skip_cons (by decide) t
    have htext := skip_text (hp (key, j) (by simp))
    cases fuel with
    | zero => omega
    | succ fuel =>
      cases members with
      | nil =>
        rw [membersText, hkey] at hfuel ⊢
        simp only [List.length_append, List.length_cons] at hfuel
        have hj := hr (key, j) (by simp) fuel ('\x7d' :: rest) (by simp only; omega)
          (stops_cons (by decide) rest)
        have hclose : skip ('\x7d' :: rest) = '\x7d' :: rest := skip_cons (by decide) rest
        simp [readMembers, hbody, hvalue, htext, hj, hclose]
      | cons n more =>
        have hall : membersText ((key, j) :: n :: more) =
            '"' :: body ++ ':' :: j.text ++ ',' :: membersText (n :: more) := by
          rw [membersText, hkey]
        rw [hall] at hfuel
        simp only [List.length_append, List.length_cons] at hfuel
        have hmore : readMembers fuel (membersText (n :: more) ++ '\x7d' :: rest) =
            some (n :: more, rest) :=
          ih (by simp) (fun x hx => hp x (by simp [hx])) (fun x hx => hr x (by simp [hx])) (by omega)
        have hj := hr (key, j) (by simp) fuel (',' :: (membersText (n :: more) ++ '\x7d' :: rest))
          (by simp only; omega) (stops_cons (by decide) _)
        have hcomma : skip (',' :: (membersText (n :: more) ++ '\x7d' :: rest)) =
            ',' :: (membersText (n :: more) ++ '\x7d' :: rest) := skip_cons (by decide) _
        obtain ⟨tail, htail⟩ := membersText_head (List.cons_ne_nil n more)
        have hnext : skip (membersText (n :: more) ++ '\x7d' :: rest) =
            membersText (n :: more) ++ '\x7d' :: rest := by
          rw [htail]
          exact skip_cons (by decide) _
        simp [readMembers, hall, hbody, hvalue, htext, hj, hcomma, hnext, hmore]

theorem readValue_items {c : Char} {t tail : Text} (fuel : Nat) (ht : skip t = c :: tail)
    (hc : c ≠ ']') : readValue (fuel + 1) ('[' :: t) =
      (readItems fuel (c :: tail)).map fun (items, rest) => (.array items, rest) := by
  simp only [readValue, ht]
  rw [if_neg (by decide), if_pos trivial]
  split
  · rename_i heq
    exact absurd (List.cons.inj heq).1 hc
  · rfl

theorem readValue_members {c : Char} {t tail : Text} (fuel : Nat) (ht : skip t = c :: tail)
    (hc : c ≠ '\x7d') : readValue (fuel + 1) ('\x7b' :: t) =
      (readMembers fuel (c :: tail)).map fun (members, rest) => (.object members, rest) := by
  simp only [readValue, ht]
  rw [if_neg (by decide), if_neg (by decide), if_pos trivial]
  split
  · rename_i heq
    exact absurd (List.cons.inj heq).1 hc
  · rfl

theorem readsBack_array {items : List Json} (hp : ∀ j ∈ items, j.Proper)
    (hr : ∀ j ∈ items, ReadsBack j) : ReadsBack (.array items) := by
  intro fuel rest hfuel hrest
  have htext : (Json.array items).text = '[' :: itemsText items ++ [']'] := by rw [text]
  rw [htext] at hfuel ⊢
  simp only [List.length_append, List.length_cons, List.length_nil] at hfuel
  cases fuel with
  | zero => omega
  | succ fuel =>
    by_cases hne : items = []
    · subst hne
      have hclose : skip (']' :: rest) = ']' :: rest := skip_cons (by decide) rest
      simp [readValue, itemsText, hclose]
    · have hitems := readItems_text hne hp hr (show (itemsText items).length < fuel by omega) rest
      obtain ⟨c, tail, hc, hblank, hclose⟩ := itemsText_head hne hp
      rw [hc, List.cons_append] at hitems
      have hvalue := readValue_items fuel (skip_cons hblank (tail ++ ']' :: rest)) hclose
      rw [hitems] at hvalue
      simpa [hc] using hvalue

theorem readsBack_object {members : List (Option Text × Json)} (hp : ∀ m ∈ members, m.2.Proper)
    (hr : ∀ m ∈ members, ReadsBack m.2) : ReadsBack (.object members) := by
  intro fuel rest hfuel hrest
  have htext : (Json.object members).text = '\x7b' :: membersText members ++ ['\x7d'] := by rw [text]
  rw [htext] at hfuel ⊢
  simp only [List.length_append, List.length_cons, List.length_nil] at hfuel
  cases fuel with
  | zero => omega
  | succ fuel =>
    by_cases hne : members = []
    · subst hne
      have hclose : skip ('\x7d' :: rest) = '\x7d' :: rest := skip_cons (by decide) rest
      simp [readValue, membersText, hclose]
    · have hmembers := readMembers_text hne hp hr
        (show (membersText members).length < fuel by omega) rest
      obtain ⟨tail, htail⟩ := membersText_head hne
      rw [htail, List.cons_append] at hmembers
      have hvalue := readValue_members fuel
        (skip_cons (c := '"') (by decide) (tail ++ '\x7d' :: rest)) (by decide)
      rw [hmembers] at hvalue
      simpa [htail] using hvalue

theorem readsBack {j : Json} (h : j.Proper) : ReadsBack j := by
  induction h with
  | null =>
    intro fuel rest hfuel hrest
    cases fuel with
    | zero => simp [text] at hfuel
    | succ fuel => simp [readValue, readWord, text]
  | bool b =>
    intro fuel rest hfuel hrest
    cases fuel with
    | zero => cases b <;> simp [text] at hfuel
    | succ fuel => cases b <;> simp [readValue, readWord, text]
  | number hn => exact readsBack_number hn
  | string t => exact readsBack_string t
  | array hp ih => exact readsBack_array hp ih
  | object hp ih => exact readsBack_object hp ih

theorem read?_text {j : Json} (h : j.Proper) : read? j.text = some j := by
  have hskip := skip_text h []
  have hread := readsBack h (j.text.length + 1) [] (Nat.le_succ _) stops_nil
  rw [List.append_nil] at hskip hread
  rw [read?, hskip, hread]
  rfl

end Rulebook.Json
