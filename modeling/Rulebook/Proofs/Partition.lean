import Rulebook.Proofs.Grammar
import Rulebook.Proofs.NumberBytes
import Rulebook.Proofs.Pieces
set_option autoImplicit false

/-!
What tokens keep of their text. They are cut out of it in order, as long as their spelling allows, and leave
nothing but blanks. A text has no other such partition, so reading tokens and partitioning a text are the
same thing.
-/

namespace Rulebook.Token

theorem Pieces.mem {offset : Nat} {t : Text} {ts : List Token} (h : Pieces offset t ts) :
    ∀ u ∈ ts, ∃ before after, t = before ++ u.text ++ after ∧
      u.offset = offset + Text.byteLength before ∧ Lexeme u.kind u.text ∧ Longest u.text after := by
  induction h with
  | done => simp
  | @blank offset c rest ts _ _ ih =>
    intro u hu
    obtain ⟨before, after, rfl, hoffset, hu⟩ := ih u hu
    refine ⟨c :: before, after, rfl, ?_, hu⟩
    rw [hoffset, Text.byteLength_cons, Nat.add_assoc]
  | @token offset kind w rest ts hlexeme hlongest _ ih =>
    intro u hu
    obtain rfl | hu := List.mem_cons.1 hu
    · exact ⟨[], rest, rfl, rfl, hlexeme, hlongest⟩
    · obtain ⟨before, after, rfl, hoffset, hu⟩ := ih u hu
      refine ⟨w ++ before, after, by simp, ?_, hu⟩
      rw [hoffset, Text.byteLength_append, Nat.add_assoc]

theorem Pieces.apart {offset : Nat} {t : Text} {ts : List Token} (h : Pieces offset t ts) :
    ts.Pairwise fun u v => u.finish ≤ v.offset := by
  induction h with
  | done => exact .nil
  | blank _ _ ih => exact ih
  | token _ _ hrest ih =>
    refine .cons (fun v hv => ?_) ih
    obtain ⟨before, after, -, hoffset, -⟩ := hrest.mem v hv
    rw [hoffset]
    exact Nat.le_add_right ..

/-- A character outside all tokens is a blank. -/
theorem Pieces.blank_or_mem {offset : Nat} {t : Text} {ts : List Token} (h : Pieces offset t ts)
    {before after : Text} {c : Char} (ht : t = before ++ c :: after) :
    Text.isBlank c = true ∨ ∃ u ∈ ts, u.offset ≤ offset + Text.byteLength before ∧
      offset + Text.byteLength before < u.finish := by
  induction h generalizing before with
  | done => simp at ht
  | @blank offset d rest ts hblank _ ih =>
    cases before with
    | nil =>
      obtain ⟨rfl, rfl⟩ := List.cons.inj ht
      exact .inl hblank
    | cons e before =>
      obtain ⟨rfl, hrest⟩ := List.cons.inj ht
      simpa [Nat.add_assoc] using ih hrest
  | @token offset kind w rest ts _ _ _ ih =>
    have hlater {more : Text} (hmore : rest = more ++ c :: after) :
        Text.isBlank c = true ∨ ∃ u ∈ (⟨kind, w, offset⟩ :: ts : List Token),
          u.offset ≤ offset + Text.byteLength (w ++ more) ∧
            offset + Text.byteLength (w ++ more) < u.finish := by
      obtain hblank | ⟨u, hu, hbounds⟩ := ih hmore
      · exact .inl hblank
      · rw [Nat.add_assoc, ← Text.byteLength_append] at hbounds
        exact .inr ⟨u, List.mem_cons_of_mem _ hu, hbounds⟩
    obtain ⟨more, rfl, hrest⟩ | ⟨more, rfl, hmore⟩ := List.append_eq_append_iff.1 ht
    · exact hlater hrest
    · cases more with
      | nil => simpa using @hlater [] hmore.symm
      | cons d more =>
        refine .inr ⟨_, List.mem_cons_self .., Nat.le_add_right .., ?_⟩
        have hpos := d.utf8Size_pos
        simp only [finish, Text.byteLength_append, Text.byteLength_cons]
        omega

/-- The tokens and the blanks between them make up the text. Each token is cut out of it at its offset,
has a spelling of its kind, and ends where nothing longer is spelled like a token. -/
structure Partition (rule : Text) (ts : List Token) : Prop where
  apart : ts.Pairwise fun t u => t.finish ≤ u.offset
  cut : ∀ t ∈ ts, rule.slice? t.offset t.finish = some t.text
  blank_or_mem : ∀ before c after, rule = before ++ c :: after → Text.isBlank c = true ∨
    ∃ t ∈ ts, t.offset ≤ Text.byteLength before ∧ Text.byteLength before < t.finish
  spelled : ∀ t ∈ ts, Spelling t.kind t.text
  longest : ∀ t ∈ ts, ∀ kind stop w, rule.slice? t.offset stop = some w → Spelling kind w →
    stop ≤ t.finish
  unquoted : ∀ t ∈ ts, t.kind = .string →
    t.text.slice? 1 (Text.byteLength t.text - 1) = some t.unquoted

theorem slice?_unquoted {t : Token} (hk : t.kind = .string) (h : Lexeme .string t.text) :
    t.text.slice? 1 (Text.byteLength t.text - 1) = some t.unquoted := by
  obtain ⟨s, hs⟩ := h
  rw [unquoted_of_isQuoted hk hs]
  obtain ⟨quote, hquote, -, heq⟩ := hs
  have hsize : quote.utf8Size = 1 := by rcases hquote with rfl | rfl <;> rfl
  refine Text.slice?_eq_some_iff.2 ⟨[quote], [quote], by simp [heq], by simp [hsize], ?_⟩
  simp only [heq, Text.byteLength_cons, Text.byteLength_append, Text.byteLength_nil, hsize]
  omega

theorem Pieces.partition {rule : Text} {ts : List Token} (h : Pieces 0 rule ts) :
    Partition rule ts where
  apart := h.apart
  cut t ht := by
    obtain ⟨before, after, rfl, hoffset, -⟩ := h.mem t ht
    exact Text.slice?_eq_some_iff.2 ⟨before, after, rfl, by omega, rfl⟩
  blank_or_mem before c after hrule := by simpa using h.blank_or_mem hrule
  spelled t ht := by
    obtain ⟨-, -, -, -, hlexeme, -⟩ := h.mem t ht
    exact lexeme_iff_spelling.1 hlexeme
  longest t ht kind stop w hslice hw := by
    obtain ⟨before, after, hrule, hoffset, -, hlongest⟩ := h.mem t ht
    obtain ⟨before', after', hrule', hlength, rfl⟩ := Text.slice?_eq_some_iff.1 hslice
    rw [hrule', List.append_assoc, List.append_assoc] at hrule
    obtain ⟨-, hrest⟩ := Text.append_inj_of_byteLength hrule (by omega)
    obtain hle | hle := Nat.le_total (Text.byteLength w) (Text.byteLength t.text)
    · exact Nat.add_le_add_left hle t.offset
    · obtain ⟨more, rfl, hafter⟩ := Text.exists_of_append_eq hrest.symm hle
      have hnil := hlongest kind more ⟨after', hafter.symm⟩ (lexeme_iff_spelling.2 hw)
      rw [hnil, List.append_nil]
      exact Nat.le_refl _
  unquoted t ht hk := by
    obtain ⟨-, -, -, -, hlexeme, -⟩ := h.mem t ht
    exact slice?_unquoted hk (hk ▸ hlexeme)

section

variable {rule : Text} {ts : List Token} {t : Token} (h : Partition rule ts) (ht : t ∈ ts)
include h ht

theorem Partition.lexeme : Lexeme t.kind t.text := lexeme_iff_spelling.2 (h.spelled t ht)

theorem Partition.offset_lt_finish : t.offset < t.finish := by
  have hne : Text.byteLength t.text ≠ 0 := fun hzero =>
    (h.lexeme ht).ne_nil (Text.eq_nil_of_byteLength hzero)
  unfold finish
  omega

/-- A token that begins at a place begins the text from there on. -/
theorem Partition.exists_append {before rest : Text} (hrule : rule = before ++ rest)
    (hoffset : t.offset = Text.byteLength before) :
    ∃ after, rest = t.text ++ after ∧ Longest t.text after := by
  obtain ⟨before', after, hcut, hlength, -⟩ := Text.slice?_eq_some_iff.1 (h.cut t ht)
  rw [hrule, List.append_assoc] at hcut
  obtain ⟨rfl, rfl⟩ := Text.append_inj_of_byteLength hcut (by omega)
  refine ⟨after, rfl, ?_⟩
  rintro kind more ⟨after', rfl⟩ hlexeme
  have hslice : rule.slice? t.offset (t.offset + Text.byteLength (t.text ++ more)) =
      some (t.text ++ more) :=
    Text.slice?_eq_some_iff.2 ⟨before, after', by simp [hrule], hlength, rfl⟩
  have hle := h.longest t ht kind _ _ hslice (lexeme_iff_spelling.1 hlexeme)
  rw [Text.byteLength_append, finish] at hle
  exact Text.eq_nil_of_byteLength (by omega)

/-- No token begins at a blank. -/
theorem Partition.le_offset_of_blank {before rest : Text} {c : Char}
    (hrule : rule = before ++ c :: rest) (hblank : Text.isBlank c = true)
    (hle : Text.byteLength before ≤ t.offset) : Text.byteLength (before ++ [c]) ≤ t.offset := by
  obtain ⟨before', after, hcut, hlength, -⟩ := Text.slice?_eq_some_iff.1 (h.cut t ht)
  rw [hrule, List.append_assoc] at hcut
  obtain ⟨more, rfl, hmore⟩ := Text.exists_of_append_eq hcut (by omega)
  cases more with
  | nil =>
    have hlexeme := h.lexeme ht
    cases htext : t.text with
    | nil => exact absurd htext hlexeme.ne_nil
    | cons d more =>
      rw [htext] at hmore hlexeme
      obtain ⟨rfl, -⟩ := List.cons.inj hmore
      rw [not_isBlank_of_lexeme hlexeme] at hblank
      cases hblank
  | cons d more =>
    obtain ⟨rfl, -⟩ := List.cons.inj hmore
    simp only [← hlength, Text.byteLength_append, Text.byteLength_cons, Text.byteLength_nil]
    omega

theorem Partition.offset_lt_byteLength : t.offset < Text.byteLength rule := by
  obtain ⟨before, after, rfl, hlength, hfinish⟩ := Text.slice?_eq_some_iff.1 (h.cut t ht)
  have hlt := h.offset_lt_finish ht
  simp only [Text.byteLength_append]
  omega

end

/-- A place between the tokens `us` and the tokens `vs`, given by the text in front of it. -/
structure Divides (before : Text) (us vs : List Token) : Prop where
  finish_le : ∀ u ∈ us, u.finish ≤ Text.byteLength before
  le_offset : ∀ v ∈ vs, Text.byteLength before ≤ v.offset

section

variable {rule before : Text} {us vs : List Token} (h : Partition rule (us ++ vs))
include h

/-- At a place between tokens only the next one can begin. -/
theorem Divides.next {t : Token} (hd : Divides before us vs) (ht : t ∈ us ++ vs)
    (hle : t.offset ≤ Text.byteLength before) (hlt : Text.byteLength before < t.finish) :
    ∃ later, vs = t :: later ∧ t.offset = Text.byteLength before := by
  obtain ht | ht := List.mem_append.1 ht
  · exact absurd (hd.finish_le t ht) (Nat.not_le.2 hlt)
  cases vs with
  | nil => cases ht
  | cons v later =>
    have hv := h.offset_lt_finish (t := v) (by simp)
    have hoffset := hd.le_offset v (List.mem_cons_self ..)
    obtain rfl | hlater := List.mem_cons.1 ht
    · exact ⟨later, rfl, Nat.le_antisymm hle hoffset⟩
    · have hapart := (List.pairwise_append.1 h.apart).2.1
      have hbehind := (List.pairwise_cons.1 hapart).1 t hlater
      omega

theorem Divides.blank {rest : Text} {c : Char} (hd : Divides before us vs)
    (hrule : rule = before ++ c :: rest) (hblank : Text.isBlank c = true) :
    Divides (before ++ [c]) us vs where
  finish_le u hu := by
    have hle := hd.finish_le u hu
    rw [Text.byteLength_append]
    omega
  le_offset v hv :=
    h.le_offset_of_blank (List.mem_append_right us hv) hrule hblank (hd.le_offset v hv)

end

theorem Divides.token {rule before : Text} {us later : List Token} {t : Token}
    (hd : Divides before us (t :: later)) (h : Partition rule (us ++ t :: later))
    (hoffset : t.offset = Text.byteLength before) : Divides (before ++ t.text) (us ++ [t]) later := by
  have hfinish : Text.byteLength (before ++ t.text) = t.finish := by
    rw [Text.byteLength_append, ← hoffset, finish]
  have hlater := (List.pairwise_cons.1 (List.pairwise_append.1 h.apart).2.1).1
  refine ⟨fun u hu => ?_, fun v hv => hfinish ▸ hlater v hv⟩
  obtain hu | hu := List.mem_append.1 hu
  · have hle := hd.finish_le u hu
    rw [Text.byteLength_append]
    omega
  · obtain rfl := List.mem_singleton.1 hu
    exact Nat.le_of_eq hfinish.symm

/-- Behind some of the tokens the others are the pieces of the rest of the text. -/
theorem Partition.piecesFrom {rule before rest : Text} {us vs : List Token}
    (h : Partition rule (us ++ vs)) (hrule : rule = before ++ rest) (hd : Divides before us vs) :
    Pieces (Text.byteLength before) rest vs := by
  induction hn : rest.length using Nat.strongRecOn generalizing before rest us vs with
  | ind n ih =>
    cases rest with
    | nil =>
      cases vs with
      | nil => exact .done
      | cons v vs =>
        have hlt := h.offset_lt_byteLength (t := v) (by simp)
        have hle := hd.le_offset v (List.mem_cons_self ..)
        rw [hrule, List.append_nil] at hlt
        omega
    | cons c tail =>
      obtain hblank | ⟨t, ht, hle, hlt⟩ := h.blank_or_mem before c tail hrule
      · have hpieces := ih tail.length (by simp [← hn]) h (by simp [hrule])
          (hd.blank h hrule hblank) rfl
        rw [Text.byteLength_append, Text.byteLength_cons, Text.byteLength_nil] at hpieces
        exact .blank hblank hpieces
      · obtain ⟨later, rfl, hoffset⟩ := hd.next h ht hle hlt
        obtain ⟨after, hrest, hlongest⟩ := h.exists_append ht hrule hoffset
        have hlexeme := h.lexeme ht
        have hlength : after.length < n := by
          have hpos := List.length_pos_iff.2 hlexeme.ne_nil
          rw [← hn, hrest, List.length_append]
          omega
        have hlater : Partition rule ((us ++ [t]) ++ later) := List.append_cons us t later ▸ h
        have hpieces := ih after.length hlength hlater (by rw [hrule, hrest, List.append_assoc])
          (hd.token h hoffset) rfl
        rw [Text.byteLength_append] at hpieces
        rw [hrest]
        obtain ⟨kind, text, offset⟩ := t
        obtain rfl : offset = Text.byteLength before := hoffset
        exact .token hlexeme hlongest hpieces

theorem tokenize_eq_ok_iff_partition {rule : Text} {ts : List Token} :
    tokenize rule = .ok ts ↔ Partition rule ts := by
  refine tokenize_eq_ok_iff.trans ⟨Pieces.partition, fun h => ?_⟩
  have hpieces : Pieces (Text.byteLength []) rule ts :=
    Partition.piecesFrom (List.nil_append ts ▸ h) rfl ⟨by simp, by simp⟩
  exact hpieces

theorem numberStop?_eq_finish {rule : Text} {ts : List Token} (h : tokenize rule = .ok ts)
    {t : Token} (ht : t ∈ ts) (hk : t.kind = .number) :
    numberStop? rule.bytes t.offset = some t.finish := by
  obtain ⟨before, after, hrule, hoffset, hlexeme, hlongest⟩ := (tokenize_eq_ok_iff.1 h).mem t ht
  rw [hk] at hlexeme
  rw [Nat.zero_add] at hoffset
  have hlength := Text.byteLength_of_ascii hlexeme.ascii
  cases htext : t.text with
  | nil => exact absurd htext hlexeme.ne_nil
  | cons c more =>
    rw [htext] at hrule hlexeme hlongest hlength
    have hstop := numberStop?_of_scan (scan_of_longest hlexeme hlongest) before
    rw [← List.cons_append, ← List.append_assoc, ← hrule] at hstop
    rw [hoffset, hstop, finish, htext, hlength, hoffset, List.length_cons]
    congr 1
    omega

/-- The tokens of a text are its one partition into blanks and longest lexemes, and cut out of its bytes.
So are those in front of an error. -/
theorem tokens_partition (rule : Text) :
    (∀ ts, tokenize rule = .ok ts ↔ Partition rule ts) ∧
    (∀ ts, tokenize rule = .ok ts → ∀ t ∈ ts,
      t.text.bytes = rule.bytes.extract t.offset t.finish ∧
        (t.kind = .number → numberStop? rule.bytes t.offset = some t.finish)) ∧
    (∀ e, tokenize rule = .error e → ∃ before ts, rule.slice? 0 e.offset = some before ∧
      tokenize before = .ok ts ∧ ∀ t ∈ ts, rule.slice? t.offset t.finish = some t.text) := by
  refine ⟨fun ts => tokenize_eq_ok_iff_partition, fun ts h t ht => ⟨?_, ?_⟩, fun e h => ?_⟩
  · exact Text.bytes_of_slice? ((tokenize_eq_ok_iff_partition.1 h).cut t ht)
  · exact numberStop?_eq_finish h ht
  · obtain ⟨before, c, after, ts, rfl, htokens, -, hhalts⟩ := halts_of_tokenize h
    refine ⟨before, ts, ?_, htokens, fun t ht => ?_⟩
    · rw [hhalts.offset_eq]
      exact Text.slice?_eq_some_iff.2 ⟨[], c :: after, rfl, rfl, Nat.zero_add _⟩
    · obtain ⟨before', after', hcut, hlength, hfinish⟩ :=
        Text.slice?_eq_some_iff.1 ((tokenize_eq_ok_iff_partition.1 htokens).cut t ht)
      exact Text.slice?_eq_some_iff.2
        ⟨before', after' ++ c :: after, by simp [hcut], hlength, hfinish⟩

/-- Adjacent tokens behind a name of two bytes, and a text that stops making sense behind one. -/
theorem tokens_partition_sample :
    let rule : Text := "é>=-5.5and".toList
    let ts : List Token := [⟨.identifier, ['é'], 0⟩, ⟨.comparator .greaterEqual, ">=".toList, 2⟩,
      ⟨.number, "-5.5".toList, 4⟩, ⟨.connective .and, "and".toList, 8⟩]
    let broken : Text := "é -x".toList
    (tokenize rule = .ok ts ∧ Partition rule ts ∧
      Text.bytes "-5.5".toList = rule.bytes.extract 4 8 ∧ numberStop? rule.bytes 4 = some 8) ∧
    (tokenize broken = .error (.unexpectedCharacter '-' 3) ∧
      ∃ before us, broken.slice? 0 3 = some before ∧ tokenize before = .ok us ∧
        ∀ t ∈ us, broken.slice? t.offset t.finish = some t.text) := by
  intro rule ts broken
  obtain ⟨hiff, hbytes, -⟩ := tokens_partition rule
  obtain ⟨-, -, herror⟩ := tokens_partition broken
  have hrule : tokenize rule = .ok ts := rfl
  have hnumber := hbytes ts hrule ⟨.number, "-5.5".toList, 4⟩ (by decide)
  have hbroken : tokenize broken = .error (.unexpectedCharacter '-' 3) := rfl
  exact ⟨⟨hrule, (hiff ts).1 hrule, hnumber.1, hnumber.2 rfl⟩, hbroken, herror _ hbroken⟩

end Rulebook.Token
