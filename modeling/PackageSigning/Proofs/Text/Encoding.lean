import Mathlib.Data.List.Flatten
import PackageSigning.Proofs.Bytes
import PackageSigning.Proofs.Text.Lines
import PackageSigning.Text.Encoding

/-!
# Reading text as it was written

Whatever text an encoding can write, it reads back from the bytes (`Text.Encoding.decode_encode`),
marks in front and pairs of units included.
-/

namespace PackageSigning

namespace Bytes

/-- Bytes that stand for one character each. -/
def IsAscii (b : Bytes) : Prop := ∀ x ∈ b, x.toNat < 128

instance decidableIsAscii (b : Bytes) : Decidable b.IsAscii :=
  decidable_of_iff (b.all fun x => decide (x.toNat < 128)) (by simp [IsAscii])

theorem toNat_latin (x : UInt8) : (Char.ofNat x.toNat).toNat = x.toNat := by
  have hx := x.toNat_lt
  have hvalid : x.toNat.isValidChar := .inl (by omega)
  unfold Char.ofNat
  rw [dif_pos hvalid]
  rfl

theorem IsAscii.append {a b : Bytes} (ha : a.IsAscii) (hb : b.IsAscii) : (a ++ b).IsAscii :=
  List.forall_mem_append.mpr ⟨ha, hb⟩

/-- A text is written character by character. -/
theorem ofText_ofList (cs : List Char) :
    ofText (String.ofList cs) = cs.flatMap String.utf8EncodeChar := by
  show (String.ofList cs).toByteArray.data.toList = _
  rw [String.toByteArray_ofList, List.utf8Encode, List.toList_data_toByteArray]

theorem length_ofText_of_sublist {cs ds : List Char} (h : cs.Sublist ds) :
    (ofText (String.ofList cs)).length ≤ (ofText (String.ofList ds)).length := by
  rw [ofText_ofList, ofText_ofList]
  exact (h.flatMap _).length_le

/-- Characters of ASCII are written as one byte each. -/
theorem ofText_toLatin {b : Bytes} (h : b.IsAscii) : ofText (toLatin b) = b := by
  have hchar (x : UInt8) (hx : x.toNat < 128) :
      String.utf8EncodeChar (Char.ofNat x.toNat) = [x] := by
    have hvalue : (Char.ofNat x.toNat).val.toNat = x.toNat := toNat_latin x
    rw [String.utf8EncodeChar.eq_1, hvalue, if_pos (by omega), UInt8.ofNat_toNat]
  rw [toLatin, ofText_ofList, List.flatMap_map]
  induction b with
  | nil => rfl
  | cons x b ih =>
    obtain ⟨hx, hb⟩ := List.forall_mem_cons.mp h
    rw [List.flatMap_cons, hchar x hx, ih hb]
    rfl

end Bytes

namespace Text.Encoding

theorem decodeUtf8_ofText (s : String) : decodeUtf8 (Bytes.ofText s) = some s.toList := by
  have hbytes : (⟨(Bytes.ofText s).toArray⟩ : ByteArray) = s.toByteArray := rfl
  unfold decodeUtf8 String.fromUTF8?
  rw [hbytes, dif_pos s.isValidUTF8]
  rfl

/-- Bytes that are a text are what the text is written as. -/
theorem ofText_of_decodeUtf8 {b : Bytes} {cs : List Char} (h : decodeUtf8 b = some cs) :
    Bytes.ofText (String.ofList cs) = b := by
  unfold decodeUtf8 String.fromUTF8? at h
  split at h
  · cases h
    rw [String.ofList_toList]
    rfl
  · cases h

theorem decodeUtf8_ascii {b : Bytes} (h : b.IsAscii) :
    decodeUtf8 b = some (b.map fun x => Char.ofNat x.toNat) := by
  have hread := decodeUtf8_ofText (Bytes.toLatin b)
  rw [Bytes.ofText_toLatin h] at hread
  rw [hread, Bytes.toLatin, String.toList_ofList]

/-- What is written piece by piece is read back piece by piece. -/
theorem mapM_of_mapM {α β : Type} {write : α → Option β} {read : β → Option α} {as : List α}
    {bs : List β} (h : ∀ a ∈ as, ∀ b, write a = some b → read b = some a)
    (hbs : as.mapM write = some bs) : bs.mapM read = some as := by
  induction as generalizing bs with
  | nil =>
    obtain rfl := Option.some.inj hbs
    rfl
  | cons a as ih =>
    obtain ⟨hfirst, hrest⟩ := List.forall_mem_cons.mp h
    rw [List.mapM_cons] at hbs
    obtain ⟨b, hb, hbs⟩ := Option.bind_eq_some_iff.mp hbs
    obtain ⟨bs', hbs', hbs⟩ := Option.bind_eq_some_iff.mp hbs
    obtain rfl := Option.some.inj hbs
    rw [List.mapM_cons, hfirst b hb, ih hrest hbs']
    rfl

/-! ## Numbers of some bytes -/

theorem length_number (order : ByteOrder) (width n : Nat) :
    (number order width n).length = width := by
  cases order with
  | little => exact Bytes.length_ofNatLittle width n
  | big => exact List.length_reverse.trans (Bytes.length_ofNatLittle width n)

theorem numbers_flatMap (order : ByteOrder) {width : Nat} (hwidth : 0 < width) {ns : List Nat}
    (h : ∀ n ∈ ns, n < 256 ^ width) :
    numbers order width (ns.flatMap (number order width)) = some ns := by
  have hwritten : ns.mapM (fun n => some (number order width n)) =
      some (ns.map (number order width)) := List.mapM_pure
  unfold numbers
  rw [List.flatMap_def, Bytes.blocks_flatten hwidth (by simp [length_number])]
  refine mapM_of_mapM (fun n hn b hb => ?_) hwritten
  obtain rfl := Option.some.inj hb
  rw [if_pos (length_number order width n)]
  cases order with
  | little => exact congrArg some ((Bytes.toNatLittle_ofNatLittle width n).trans
      (Nat.mod_eq_of_lt (h n hn)))
  | big => exact congrArg some ((Bytes.toNat_ofNat width n).trans (Nat.mod_eq_of_lt (h n hn)))

/-! ## Units of sixteen bits -/

theorem toNat_cases (c : Char) : c.toNat < 0xd800 ∨ 0xdfff < c.toNat ∧ c.toNat < 0x110000 :=
  c.valid

/-- Units are small numbers, and those of a pair are told from the others. -/
theorem units16_cases (c : Char) :
    (units16 c = [c.toNat] ∧ c.toNat < 0x10000 ∧ (c.toNat < 0xd800 ∨ 0xe000 ≤ c.toNat)) ∨
    ∃ high low, units16 c = [high, low] ∧ (0xd800 ≤ high ∧ high < 0xdc00) ∧
      (0xdc00 ≤ low ∧ low < 0xe000) ∧
      0x10000 + (high - 0xd800) * 0x400 + (low - 0xdc00) = c.toNat := by
  have hc := toNat_cases c
  unfold units16
  by_cases hsmall : c.toNat < 0x10000
  · exact .inl ⟨if_pos hsmall, hsmall, by omega⟩
  · refine .inr ⟨_, _, if_neg hsmall, ?_, ?_, ?_⟩ <;> omega

theorem units16_lt {c : Char} : ∀ u ∈ units16 c, u < 256 ^ 2 := by
  obtain ⟨hunits, hsmall, -⟩ | ⟨high, low, hunits, hhigh, hlow, -⟩ := units16_cases c
  · rw [hunits]
    simpa using hsmall
  · rw [hunits]
    simp only [List.mem_cons, List.not_mem_nil, or_false, forall_eq_or_imp, forall_eq]
    omega

theorem charsOfUnits_append (c : Char) (us : List Nat) :
    charsOfUnits (units16 c ++ us) = (charsOfUnits us).map (c :: ·) := by
  obtain ⟨hunits, -, hplain⟩ | ⟨high, low, hunits, hhigh, hlow, hpair⟩ := units16_cases c
  · rw [hunits, List.singleton_append, charsOfUnits.eq_def]
    dsimp only
    rw [if_neg (by omega), if_neg (by omega), Char.ofNat_toNat]
  · rw [hunits, List.cons_append, List.singleton_append, charsOfUnits.eq_def]
    dsimp only
    rw [if_pos hhigh, if_pos hlow, hpair, Char.ofNat_toNat]

theorem charsOfUnits_flatMap (cs : List Char) : charsOfUnits (cs.flatMap units16) = some cs := by
  induction cs with
  | nil => rfl
  | cons c cs ih =>
    rw [List.flatMap_cons, charsOfUnits_append, ih]
    rfl

theorem read_utf16 (order : ByteOrder) (cs : List Char) :
    (numbers order 2 (cs.flatMap fun c => (units16 c).flatMap (number order 2)) >>=
      charsOfUnits) = some cs := by
  rw [← List.flatMap_assoc, numbers_flatMap order (by decide)]
  · exact charsOfUnits_flatMap cs
  · intro u hu
    obtain ⟨c, -, hc⟩ := List.mem_flatMap.mp hu
    exact units16_lt u hc

/-! ## Characters one by one -/

theorem char?_toNat (c : Char) : char? c.toNat = some c := by
  unfold char?
  rw [if_pos (show c.toNat.isValidChar from c.valid), Char.ofNat_toNat]

theorem read_utf32 (order : ByteOrder) (cs : List Char) :
    (numbers order 4 (cs.flatMap fun c => number order 4 c.toNat) >>= fun ns =>
      ns.mapM char?) = some cs := by
  have hwritten : cs.mapM (fun c => some c.toNat) = some (cs.map Char.toNat) := List.mapM_pure
  rw [← List.flatMap_map, numbers_flatMap order (by decide)]
  · refine mapM_of_mapM (fun c _ n hn => ?_) hwritten
    obtain rfl := Option.some.inj hn
    exact char?_toNat c
  · intro n hn
    obtain ⟨c, -, rfl⟩ := List.mem_map.mp hn
    have := toNat_cases c
    omega

theorem codePointAt?_byteFor? {e : Encoding} {c : Char} {x : UInt8} (h : byteFor? e c = some x) :
    codePointAt? e x.toNat = some c.toNat := by
  obtain ⟨n, hn, rfl⟩ := Option.map_eq_some_iff.mp h
  have hlt : n < 256 := List.mem_range.mp (List.mem_of_find?_eq_some hn)
  have hx : (UInt8.ofNat n).toNat = n := by simpa using hlt
  have hfound := List.find?_some hn
  rw [hx]
  exact eq_of_beq hfound

theorem read_bytes (e : Encoding) {cs : List Char} {b : Bytes}
    (h : cs.mapM (byteFor? e) = some b) :
    b.mapM (fun x => codePointAt? e x.toNat >>= char?) = some cs := by
  refine mapM_of_mapM (fun c _ x hx => ?_) h
  rw [codePointAt?_byteFor? hx]
  exact char?_toNat c

theorem readMark_mark16 (b : Bytes) : readMark 2 (mark (utf16 none) ++ b) = (.little, b) :=
  if_pos rfl

theorem readMark_mark32 (b : Bytes) : readMark 4 (mark (utf32 none) ++ b) = (.little, b) :=
  if_pos rfl

theorem decodeChars_encodeBare {e : Encoding} {cs : List Char} {b : Bytes}
    (h : encodeBare e cs = some b) : decodeChars e (mark e ++ b) = some cs := by
  cases e with
  | utf8 =>
    obtain rfl := Option.some.inj h
    exact (decodeUtf8_ofText _).trans (congrArg some String.toList_ofList)
  | utf8Marked =>
    obtain rfl := Option.some.inj h
    exact (decodeUtf8_ofText _).trans (congrArg some String.toList_ofList)
  | utf16 order =>
    obtain rfl := Option.some.inj h
    cases order with
    | none =>
      unfold decodeChars
      dsimp only
      rw [readMark_mark16]
      exact read_utf16 .little cs
    | some order => exact read_utf16 order cs
  | utf32 order =>
    obtain rfl := Option.some.inj h
    cases order with
    | none =>
      unfold decodeChars
      dsimp only
      rw [readMark_mark32]
      exact read_utf32 .little cs
    | some order => exact read_utf32 order cs
  | _ => exact read_bytes _ h

/-- The encodings that are told apart, whatever the platform is. -/
def IsKnown (e : Encoding) : Prop := ∀ name, e ≠ other name

variable [Platform]

theorem encode_eq_ok_iff {e : Encoding} (known : e.IsKnown) {text : String} {b : Bytes} :
    e.encode text = .ok b ↔ (∀ name, e ≠ transform name) ∧ e ≠ undefined ∧
      ∃ body, encodeBare e text.toList = some body ∧ mark e ++ body = b := by
  unfold encode
  split
  · next name => exact absurd rfl (known name)
  · next name => exact iff_of_false nofun fun h => h.1 name rfl
  · exact iff_of_false nofun fun h => h.2.1 rfl
  · next hbytes hundefined =>
    cases encodeBare e text.toList with
    | none => exact iff_of_false nofun fun ⟨_, _, _, hbody, _⟩ => nomatch hbody
    | some body =>
      constructor
      · intro h
        exact ⟨hbytes, hundefined, body, rfl, Except.ok.inj h⟩
      · intro ⟨_, _, _, hbody, h⟩
        obtain rfl := Option.some.inj hbody
        exact congrArg Except.ok h

/-- Whatever a known encoding writes, it reads back. -/
theorem decode_encode {e : Encoding} (known : e.IsKnown) {text : String} {b : Bytes}
    (h : e.encode text = .ok b) : e.decode b = .ok text := by
  obtain ⟨hbytes, hundefined, body, hbody, rfl⟩ := (encode_eq_ok_iff known).mp h
  unfold decode
  split
  · next name => exact absurd rfl (known name)
  · next name => exact absurd rfl (hbytes name)
  · exact absurd rfl hundefined
  · rw [decodeChars_encodeBare hbody]
    exact congrArg Except.ok String.ofList_toList

/-! ## Texts one after the other -/

omit [Platform] in
/-- What an encoding can write, it can write character by character. -/
theorem exists_encodeBare_iff {e : Encoding} {cs : List Char} :
    (∃ body, encodeBare e cs = some body) ↔ ∀ c ∈ cs, ∃ body, encodeBare e [c] = some body := by
  have hsingle (cs : List Char) : (∃ body, cs.mapM (byteFor? e) = some body) ↔
      ∀ c ∈ cs, ∃ body, [c].mapM (byteFor? e) = some body := by
    induction cs with
    | nil => exact iff_of_true ⟨[], rfl⟩ nofun
    | cons c cs ih =>
      rw [List.forall_mem_cons, ← ih]
      simp only [List.mapM_cons, Option.bind_eq_bind, Option.bind_eq_some_iff]
      constructor
      · intro ⟨_, x, hx, rest, hrest, _⟩
        exact ⟨⟨[x], x, hx, [], rfl, rfl⟩, rest, hrest⟩
      · intro ⟨⟨_, x, hx, _⟩, rest, hrest⟩
        exact ⟨x :: rest, x, hx, rest, hrest, rfl⟩
  cases e with
  | utf8 | utf8Marked | utf16 | utf32 => exact iff_of_true ⟨_, rfl⟩ fun _ _ => ⟨_, rfl⟩
  | _ => exact hsingle cs

omit [Platform] in
theorem exists_encodeBare_feed (e : Encoding) : ∃ body, encodeBare e ['\n'] = some body := by
  cases e <;> exact ⟨_, rfl⟩

/-- Texts that a known encoding can write, it can write one per line. -/
theorem exists_encode_joined {e : Encoding} (known : e.IsKnown) {texts : List String} (hne : texts ≠ [])
    (h : ∀ text ∈ texts, ∃ b, e.encode text = .ok b) : ∃ b, e.encode (joined texts) = .ok b := by
  obtain ⟨first, hfirst⟩ := List.exists_mem_of_ne_nil texts hne
  obtain ⟨_, hencode⟩ := h first hfirst
  obtain ⟨hbytes, hundefined, -⟩ := (encode_eq_ok_iff known).mp hencode
  have hbody : ∃ body, encodeBare e (joined texts).toList = some body := by
    refine exists_encodeBare_iff.mpr fun c hc => ?_
    rw [joined, String.toList_ofList] at hc
    obtain ⟨text, htext, hc⟩ := List.mem_flatMap.mp hc
    obtain hc | hc := List.mem_append.mp hc
    · obtain ⟨_, hencode⟩ := h text htext
      obtain ⟨-, -, body, hbody, -⟩ := (encode_eq_ok_iff known).mp hencode
      exact exists_encodeBare_iff.mp ⟨body, hbody⟩ c hc
    · obtain rfl := List.mem_singleton.mp hc
      exact exists_encodeBare_feed e
  obtain ⟨body, hbody⟩ := hbody
  exact ⟨_, (encode_eq_ok_iff known).mpr ⟨hbytes, hundefined, body, hbody, rfl⟩⟩

end Text.Encoding
end PackageSigning
