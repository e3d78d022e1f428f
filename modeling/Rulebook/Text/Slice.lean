import Rulebook.Text.Basic
set_option autoImplicit false

/-!
Parts of a text by byte offsets. A text can be cut only between two of its characters, or at its ends.
-/

namespace Rulebook.Text

/-- The UTF-8 bytes of a text. -/
def bytes (t : Text) : List UInt8 := t.flatMap String.utf8EncodeChar

@[simp] theorem bytes_append (s t : Text) : bytes (s ++ t) = bytes s ++ bytes t :=
  List.flatMap_append

theorem bytes_cons (c : Char) (t : Text) : bytes (c :: t) = String.utf8EncodeChar c ++ bytes t :=
  List.flatMap_cons

@[simp] theorem length_bytes (t : Text) : (bytes t).length = byteLength t := by
  induction t with
  | nil => rfl
  | cons c t ih =>
    rw [bytes_cons, List.length_append, ih, String.length_utf8EncodeChar, byteLength_cons]

/-- A character of ASCII is its own byte, and every other one begins with a byte past ASCII. -/
theorem utf8EncodeChar_cases (c : Char) :
    (c.toNat < 128 ∧ String.utf8EncodeChar c = [UInt8.ofNat c.toNat]) ∨
      128 ≤ c.toNat ∧ ∃ b more, String.utf8EncodeChar c = b :: more ∧ 128 ≤ b.toNat := by
  unfold String.utf8EncodeChar
  simp only [Char.toNat]
  split
  · exact .inl ⟨by omega, rfl⟩
  · refine .inr ⟨by omega, ?_⟩
    split
    · exact ⟨_, _, rfl, by simp [UInt8.toNat_ofNat']; omega⟩
    · split <;> exact ⟨_, _, rfl, by simp [UInt8.toNat_ofNat']; omega⟩

theorem eq_nil_of_byteLength {t : Text} (h : byteLength t = 0) : t = [] := by
  cases t with
  | nil => rfl
  | cons c t =>
    have hpos := c.utf8Size_pos
    rw [byteLength_cons] at h
    omega

/-- Of two beginnings of one text the longer goes on where the shorter ends. -/
theorem exists_of_append_eq {s t u v : Text} (h : s ++ u = t ++ v)
    (hle : byteLength s ≤ byteLength t) : ∃ more, t = s ++ more ∧ u = more ++ v := by
  obtain ⟨more, ht, hu⟩ | ⟨more, rfl, hv⟩ := List.append_eq_append_iff.1 h
  · exact ⟨more, ht, hu⟩
  · rw [byteLength_append] at hle
    obtain rfl := eq_nil_of_byteLength (t := more) (by omega)
    exact ⟨[], by simp, hv.symm⟩

theorem append_inj_of_byteLength {s t u v : Text} (h : s ++ u = t ++ v)
    (hs : byteLength s = byteLength t) : s = t ∧ u = v := by
  obtain ⟨more, rfl, rfl⟩ := exists_of_append_eq h (Nat.le_of_eq hs)
  rw [byteLength_append] at hs
  obtain rfl := eq_nil_of_byteLength (t := more) (by omega)
  exact ⟨(List.append_nil _).symm, rfl⟩

/-- The two parts of a text at a byte offset, unless this falls inside a character or behind the end. -/
def splitAt? : Nat → Text → Option (Text × Text)
  | 0, t => some ([], t)
  | _ + 1, [] => none
  | n + 1, c :: t =>
    if c.utf8Size ≤ n + 1 then
      (splitAt? (n + 1 - c.utf8Size) t).map fun parts => (c :: parts.1, parts.2)
    else none

/-- The part of a text from one byte offset to another. -/
def slice? (t : Text) (start stop : Nat) : Option Text :=
  if start ≤ stop then
    (splitAt? start t).bind fun parts => (splitAt? (stop - start) parts.2).map Prod.fst
  else none

theorem splitAt?_byteLength (s rest : Text) : splitAt? (byteLength s) (s ++ rest) = some (s, rest) := by
  induction s with
  | nil => cases rest <;> rfl
  | cons c s ih =>
    obtain ⟨n, hn⟩ : ∃ n, byteLength (c :: s) = n + 1 :=
      ⟨byteLength (c :: s) - 1, by have := c.utf8Size_pos; simp only [byteLength_cons]; omega⟩
    rw [hn, List.cons_append, splitAt?, ← hn, byteLength_cons, if_pos (Nat.le_add_right ..),
      Nat.add_sub_cancel_left, ih]
    rfl

theorem splitAt?_eq_some_iff {n : Nat} {t s rest : Text} :
    splitAt? n t = some (s, rest) ↔ t = s ++ rest ∧ byteLength s = n := by
  constructor
  · intro h
    induction t generalizing n s with
    | nil =>
      cases n with
      | zero =>
        cases h
        exact ⟨rfl, rfl⟩
      | succ n => simp [splitAt?] at h
    | cons c t ih =>
      cases n with
      | zero =>
        cases h
        exact ⟨rfl, rfl⟩
      | succ n =>
        rw [splitAt?] at h
        split at h
        · obtain ⟨⟨s', rest'⟩, hparts, heq⟩ := Option.map_eq_some_iff.1 h
          cases heq
          obtain ⟨rfl, hlength⟩ := ih hparts
          exact ⟨rfl, by rw [byteLength_cons, hlength]; omega⟩
        · cases h
  · rintro ⟨rfl, rfl⟩
    exact splitAt?_byteLength s rest

theorem slice?_eq_some_iff {t s : Text} {start stop : Nat} :
    t.slice? start stop = some s ↔
      ∃ before after, t = before ++ s ++ after ∧ byteLength before = start ∧
        start + byteLength s = stop := by
  constructor
  · intro h
    unfold slice? at h
    split at h
    · rename_i hle
      obtain ⟨⟨before, rest⟩, hbefore, hrest⟩ := Option.bind_eq_some_iff.1 h
      obtain ⟨⟨s, after⟩, hs, rfl⟩ := Option.map_eq_some_iff.1 hrest
      obtain ⟨rfl, rfl⟩ := splitAt?_eq_some_iff.1 hbefore
      obtain ⟨rfl, hlength⟩ := splitAt?_eq_some_iff.1 hs
      refine ⟨before, after, (List.append_assoc ..).symm, rfl, ?_⟩
      dsimp only
      omega
    · cases h
  · rintro ⟨before, after, rfl, rfl, rfl⟩
    have hsplit := splitAt?_byteLength before (s ++ after)
    rw [slice?, if_pos (Nat.le_add_right ..), List.append_assoc, hsplit, Option.bind_some,
      Nat.add_sub_cancel_left, splitAt?_byteLength, Option.map_some]

/-- A slice has the bytes between its two ends. -/
theorem bytes_of_slice? {t s : Text} {start stop : Nat} (h : t.slice? start stop = some s) :
    bytes s = (bytes t).extract start stop := by
  obtain ⟨before, after, rfl, rfl, rfl⟩ := slice?_eq_some_iff.1 h
  simp only [bytes_append, List.append_assoc, List.extract_eq_take_drop, Nat.add_sub_cancel_left,
    ← length_bytes, List.drop_left, List.take_left]

end Rulebook.Text
