/-!
# UTF-8

A text is written as the octets of its characters, one after the other, and read back by
a machine that takes one octet at a time (`scalars`). The machine marks every ill-formed
part of its input, taken as long as it still could have begun a character. The strict
reading `decode?` refuses a text with such a part, and the lenient reading `decodeLossy`
puts U+FFFD in its place. A text that was written reads back (`decodeLossy_encode`), and what is
read strictly is what writes the text (`decode?_eq_some_iff`).
-/

namespace DevVm

/-- Raw octets, as files, streams and programs carry them. -/
abbrev Bytes := List UInt8

end DevVm

namespace DevVm.Text.Utf8

/-- The octets of a list of characters. -/
def encodeChars (text : List Char) : Bytes := text.flatMap String.utf8EncodeChar

/-- The octets of a text. -/
def encode (text : String) : Bytes := encodeChars text.toList

/-- A character of which some octets have been read: the bits so far, how many octets are
still missing, and the range the next one has to lie in. -/
structure Pending where
  bits : Nat
  missing : Nat
  low : UInt8
  high : UInt8
deriving DecidableEq, Repr

/-- What an octet does between two characters. -/
inductive Lead where
  | whole (c : Char)
  | opens (p : Pending)
  | illFormed
deriving DecidableEq, Repr

/-- The part an octet plays as the first one of a character. The narrowed ranges after
`E0`, `ED`, `F0` and `F4` shut out overlong forms, surrogates and code points above
U+10FFFF. -/
def lead (b : UInt8) : Lead :=
  if b ≤ 0x7F then .whole (Char.ofNat b.toNat)
  else if b < 0xC2 then .illFormed
  else if b ≤ 0xDF then .opens ⟨b.toNat - 0xC0, 1, 0x80, 0xBF⟩
  else if b = 0xE0 then .opens ⟨0, 2, 0xA0, 0xBF⟩
  else if b = 0xED then .opens ⟨0x0D, 2, 0x80, 0x9F⟩
  else if b ≤ 0xEF then .opens ⟨b.toNat - 0xE0, 2, 0x80, 0xBF⟩
  else if b = 0xF0 then .opens ⟨0, 3, 0x90, 0xBF⟩
  else if b ≤ 0xF3 then .opens ⟨b.toNat - 0xF0, 3, 0x80, 0xBF⟩
  else if b = 0xF4 then .opens ⟨4, 3, 0x80, 0x8F⟩
  else .illFormed

/-- The characters of an octet sequence, `none` standing for an ill-formed part. An octet
that does not continue the character in progress ends that part and is looked at afresh. -/
def scalarsFrom : Option Pending → Bytes → List (Option Char)
  | none, [] => []
  | some _, [] => [none]
  | none, b :: rest =>
    match lead b with
    | .whole c => some c :: scalarsFrom none rest
    | .opens p => scalarsFrom (some p) rest
    | .illFormed => none :: scalarsFrom none rest
  | some p, b :: rest =>
    if p.low ≤ b ∧ b ≤ p.high then
      let bits := p.bits * 64 + (b.toNat - 0x80)
      if p.missing ≤ 1 then some (Char.ofNat bits) :: scalarsFrom none rest
      else scalarsFrom (some ⟨bits, p.missing - 1, 0x80, 0xBF⟩) rest
    else
      match lead b with
      | .whole c => none :: some c :: scalarsFrom none rest
      | .opens q => none :: scalarsFrom (some q) rest
      | .illFormed => none :: none :: scalarsFrom none rest

/-- The characters of an octet sequence, `none` standing for an ill-formed part. -/
def scalars (bytes : Bytes) : List (Option Char) := scalarsFrom none bytes

/-- The text an octet sequence stands for, if it is well formed throughout. -/
def decode? (bytes : Bytes) : Option String := ((scalars bytes).mapM id).map String.ofList

/-- The text of an octet sequence, with U+FFFD for every ill-formed part. -/
def decodeLossy (bytes : Bytes) : String :=
  String.ofList ((scalars bytes).map fun c => c.getD '\uFFFD')

/-! ## Texts that were written -/

theorem lead_whole : ∀ n < 0x80, lead (UInt8.ofNat n) = .whole (Char.ofNat n) := by
  decide

theorem lead_two : ∀ bits < 32, 2 ≤ bits →
    lead (UInt8.ofNat (bits + 192)) = .opens ⟨bits, 1, 0x80, 0xBF⟩ := by
  decide

theorem lead_three : ∀ bits < 16, lead (UInt8.ofNat (bits + 224)) =
    .opens ⟨bits, 2, if bits = 0 then 0xA0 else 0x80, if bits = 13 then 0x9F else 0xBF⟩ := by
  decide

theorem lead_four : ∀ bits < 5, lead (UInt8.ofNat (bits + 240)) =
    .opens ⟨bits, 3, if bits = 0 then 0x90 else 0x80, if bits = 4 then 0x8F else 0xBF⟩ := by
  decide

theorem scalarsFrom_opens {b : UInt8} {p : Pending} (h : lead b = .opens p) (rest : Bytes) :
    scalarsFrom none (b :: rest) = scalarsFrom (some p) rest := by
  rw [scalarsFrom, h]

section Continuation

variable {bits more missing : Nat} {low high : UInt8}

/-- An octet that continues a character carries six bits. -/
theorem continues (hmore : more < 64) (hlow : low.toNat ≤ more + 128)
    (hhigh : more + 128 ≤ high.toNat) :
    (low ≤ UInt8.ofNat (more + 128) ∧ UInt8.ofNat (more + 128) ≤ high) ∧
      (UInt8.ofNat (more + 128)).toNat - 0x80 = more := by
  have hoctet : (UInt8.ofNat (more + 128)).toNat = more + 128 :=
    UInt8.toNat_ofNat_of_lt' (show _ < 256 by omega)
  rw [UInt8.le_iff_toNat_le, UInt8.le_iff_toNat_le, hoctet]
  exact ⟨⟨hlow, hhigh⟩, Nat.add_sub_cancel ..⟩

/-- The last octet of a character. -/
theorem scalarsFrom_last (hmore : more < 64) (hlow : low.toNat ≤ more + 128)
    (hhigh : more + 128 ≤ high.toNat) (rest : Bytes) :
    scalarsFrom (some ⟨bits, 1, low, high⟩) (UInt8.ofNat (more + 128) :: rest) =
      some (Char.ofNat (bits * 64 + more)) :: scalarsFrom none rest := by
  obtain ⟨hrange, hbits⟩ := continues hmore hlow hhigh
  rw [scalarsFrom, if_pos hrange, hbits]
  exact if_pos (Nat.le_refl 1)

/-- An octet inside a character. -/
theorem scalarsFrom_inside (hmore : more < 64) (hlow : low.toNat ≤ more + 128)
    (hhigh : more + 128 ≤ high.toNat) (rest : Bytes) :
    scalarsFrom (some ⟨bits, missing + 2, low, high⟩) (UInt8.ofNat (more + 128) :: rest) =
      scalarsFrom (some ⟨bits * 64 + more, missing + 1, 0x80, 0xBF⟩) rest := by
  obtain ⟨hrange, hbits⟩ := continues hmore hlow hhigh
  rw [scalarsFrom, if_pos hrange, hbits]
  exact if_neg (show ¬missing + 2 ≤ 1 by omega)

end Continuation

/-- A character that was written is read. -/
theorem scalarsFrom_encodeChar (c : Char) (rest : Bytes) :
    scalarsFrom none (String.utf8EncodeChar c ++ rest) = some c :: scalarsFrom none rest := by
  obtain ⟨v, hv⟩ : ∃ v, c.toNat = v := ⟨_, rfl⟩
  have hvalid : v < 0xD800 ∨ 0xDFFF < v ∧ v < 0x110000 := hv ▸ c.valid
  have hread {n : Nat} (h : n = v) :
      some (Char.ofNat n) :: scalarsFrom none rest = some c :: scalarsFrom none rest := by
    rw [h, ← hv, Char.ofNat_toNat]
  unfold String.utf8EncodeChar
  rw [show c.val.toNat = v from hv]
  dsimp only
  split
  next =>
    rw [List.cons_append, scalarsFrom, lead_whole v (by omega)]
    exact hread rfl
  next =>
  split
  next =>
    rw [List.cons_append, scalarsFrom_opens (lead_two _ (by omega) (by omega)),
      List.cons_append, scalarsFrom_last (by omega) (show 128 ≤ _ by omega) (show _ ≤ 191 by omega)]
    exact hread (by omega)
  next =>
  split
  next =>
    -- The narrowed ranges after the first octet hold exactly what is neither overlong nor a
    -- surrogate.
    rw [List.cons_append, scalarsFrom_opens (lead_three _ (by omega)), List.cons_append,
      scalarsFrom_inside (by omega), List.cons_append,
      scalarsFrom_last (by omega) (show 128 ≤ _ by omega) (show _ ≤ 191 by omega)]
    · exact hread (by omega)
    · split
      · show 160 ≤ _
        omega
      · show 128 ≤ _
        omega
    · split
      · show _ ≤ 159
        omega
      · show _ ≤ 191
        omega
  next =>
    rw [List.cons_append, scalarsFrom_opens (lead_four _ (by omega)), List.cons_append,
      scalarsFrom_inside (by omega), List.cons_append,
      scalarsFrom_inside (by omega) (show 128 ≤ _ by omega) (show _ ≤ 191 by omega),
      List.cons_append,
      scalarsFrom_last (by omega) (show 128 ≤ _ by omega) (show _ ≤ 191 by omega)]
    · exact hread (by omega)
    · split
      · show 144 ≤ _
        omega
      · show 128 ≤ _
        omega
    · split
      · show _ ≤ 143
        omega
      · show _ ≤ 191
        omega

theorem scalars_encodeChars (text : List Char) : scalars (encodeChars text) = text.map some := by
  unfold scalars encodeChars
  induction text with
  | nil => rfl
  | cons c rest ih => rw [List.flatMap_cons, scalarsFrom_encodeChar, ih, List.map_cons]

/-- A text that was written reads back. -/
theorem decodeLossy_encode (text : String) : decodeLossy (encode text) = text := by
  unfold decodeLossy encode
  rw [scalars_encodeChars, List.map_map]
  exact (congrArg _ (List.map_id _)).trans String.ofList_toList

/-! ## Octets that are well formed -/

/-- The part every octet plays, by its number. -/
theorem lead_eq : ∀ n < 256, lead (UInt8.ofNat n) =
    if n < 128 then .whole (Char.ofNat n)
    else if n < 194 then .illFormed
    else if n < 224 then .opens ⟨n - 192, 1, 0x80, 0xBF⟩
    else if n < 240 then
      .opens ⟨n - 224, 2, if n = 224 then 0xA0 else 0x80, if n = 237 then 0x9F else 0xBF⟩
    else if n < 245 then
      .opens ⟨n - 240, 3, if n = 240 then 0x90 else 0x80, if n = 244 then 0x8F else 0xBF⟩
    else .illFormed := by
  decide +kernel

theorem encodeChar_ofNat {v : Nat} (h : v < 0xD800 ∨ 0xDFFF < v ∧ v < 0x110000) :
    String.utf8EncodeChar (Char.ofNat v) =
      if v ≤ 127 then [UInt8.ofNat v]
      else if v ≤ 2047 then [UInt8.ofNat (v / 64 % 32 + 192), UInt8.ofNat (v % 64 + 128)]
      else if v ≤ 65535 then
        [UInt8.ofNat (v / 4096 % 16 + 224), UInt8.ofNat (v / 64 % 64 + 128),
          UInt8.ofNat (v % 64 + 128)]
      else
        [UInt8.ofNat (v / 262144 % 8 + 240), UInt8.ofNat (v / 4096 % 64 + 128),
          UInt8.ofNat (v / 64 % 64 + 128), UInt8.ofNat (v % 64 + 128)] := by
  have hv : (Char.ofNat v).val.toNat = v := by
    rw [Char.ofNat, dif_pos h]
    rfl
  unfold String.utf8EncodeChar
  rw [hv]

section Continued

variable {bits missing : Nat} {low high : UInt8} {bytes : Bytes} {text : List Char}

theorem scalarsFrom_illFormed_ne {rest : List (Option Char)} : none :: rest ≠ text.map some := by
  cases text with
  | nil => exact nofun
  | cons c text => rw [List.map_cons]; exact fun h => nomatch (List.cons.inj h).1

/-- A character that is open goes on with an octet in its range, if the octets are well formed. -/
theorem continued (hlow : 128 ≤ low.toNat) (hhigh : high.toNat ≤ 191)
    (h : scalarsFrom (some ⟨bits, missing, low, high⟩) bytes = text.map some) :
    ∃ more rest, bytes = UInt8.ofNat (more + 128) :: rest ∧ more < 64 ∧
      low.toNat ≤ more + 128 ∧ more + 128 ≤ high.toNat := by
  match bytes with
  | [] => exact absurd h scalarsFrom_illFormed_ne
  | b :: rest =>
    rw [scalarsFrom] at h
    split at h
    next hrange =>
      rw [UInt8.le_iff_toNat_le, UInt8.le_iff_toNat_le] at hrange
      dsimp only at hrange
      refine ⟨b.toNat - 128, rest, ?_, by omega, by omega, by omega⟩
      rw [Nat.sub_add_cancel (by omega), UInt8.ofNat_toNat]
    next =>
      split at h <;> exact absurd h scalarsFrom_illFormed_ne

/-- The last octet of a character. -/
theorem continued_last (hlow : 128 ≤ low.toNat) (hhigh : high.toNat ≤ 191)
    (h : scalarsFrom (some ⟨bits, 1, low, high⟩) bytes = text.map some) :
    ∃ more rest later, bytes = UInt8.ofNat (more + 128) :: rest ∧ more < 64 ∧
      low.toNat ≤ more + 128 ∧ more + 128 ≤ high.toNat ∧
      text = Char.ofNat (bits * 64 + more) :: later ∧
      scalarsFrom none rest = later.map some := by
  obtain ⟨more, rest, rfl, hmore, hlow', hhigh'⟩ := continued hlow hhigh h
  rw [scalarsFrom_last hmore hlow' hhigh'] at h
  obtain ⟨c, later, rfl, hc, hlater⟩ := List.map_eq_cons_iff.mp h.symm
  exact ⟨more, rest, later, rfl, hmore, hlow', hhigh', by rw [Option.some.inj hc], hlater.symm⟩

/-- An octet inside a character. -/
theorem continued_inside (hlow : 128 ≤ low.toNat) (hhigh : high.toNat ≤ 191)
    (h : scalarsFrom (some ⟨bits, missing + 2, low, high⟩) bytes = text.map some) :
    ∃ more rest, bytes = UInt8.ofNat (more + 128) :: rest ∧ more < 64 ∧
      low.toNat ≤ more + 128 ∧ more + 128 ≤ high.toNat ∧
      scalarsFrom (some ⟨bits * 64 + more, missing + 1, 0x80, 0xBF⟩) rest = text.map some := by
  obtain ⟨more, rest, rfl, hmore, hlow', hhigh'⟩ := continued hlow hhigh h
  rw [scalarsFrom_inside hmore hlow' hhigh'] at h
  exact ⟨more, rest, rfl, hmore, hlow', hhigh', h⟩

end Continued

/-- A bound that is narrowed behind one octet, by its number. -/
theorem toNat_narrowed {n special : Nat} {narrow usual : UInt8} :
    (if n = special then narrow else usual).toNat =
      if n = special then narrow.toNat else usual.toNat := apply_ite UInt8.toNat _ _ _

/-- Octets begin with the first character of a text, and go on with what reads as the rest. -/
def BeginsWith (bytes : Bytes) (text : List Char) : Prop :=
  ∃ c more later, bytes = String.utf8EncodeChar c ++ more ∧ text = c :: later ∧
    scalarsFrom none more = later.map some

section FirstCharacter

variable {n : Nat} {rest : Bytes} {text : List Char}

theorem beginsWith_whole (hn : n < 128)
    (h : some (Char.ofNat n) :: scalarsFrom none rest = text.map some) :
    BeginsWith (UInt8.ofNat n :: rest) text := by
  obtain ⟨c, later, rfl, hc, hlater⟩ := List.map_eq_cons_iff.mp h.symm
  refine ⟨Char.ofNat n, rest, later, ?_, by rw [Option.some.inj hc], hlater.symm⟩
  rw [encodeChar_ofNat (by omega), if_pos (by omega), List.singleton_append]

theorem beginsWith_two (hn : 194 ≤ n) (hn' : n < 224)
    (h : scalarsFrom (some ⟨n - 192, 1, 0x80, 0xBF⟩) rest = text.map some) :
    BeginsWith (UInt8.ofNat n :: rest) text := by
  obtain ⟨last, rest, later, rfl, hlast, -, -, rfl, hlater⟩ :=
    continued_last (by decide) (by decide) h
  refine ⟨_, rest, later, ?_, rfl, hlater⟩
  rw [encodeChar_ofNat (by omega), if_neg (by omega), if_pos (by omega)]
  have hfirst : ((n - 192) * 64 + last) / 64 % 32 + 192 = n := by omega
  have hsecond : ((n - 192) * 64 + last) % 64 = last := by omega
  rw [hfirst, hsecond]
  rfl

theorem beginsWith_three (hn : 224 ≤ n) (hn' : n < 240)
    (h : scalarsFrom (some ⟨n - 224, 2, if n = 224 then 0xA0 else 0x80,
      if n = 237 then 0x9F else 0xBF⟩) rest = text.map some) :
    BeginsWith (UInt8.ofNat n :: rest) text := by
  obtain ⟨second, rest, rfl, hsecond, hlow, hhigh, h⟩ :=
    continued_inside (by split <;> decide) (by split <;> decide) h
  obtain ⟨last, rest, later, rfl, hlast, -, -, rfl, hlater⟩ :=
    continued_last (by decide) (by decide) h
  -- The narrowed ranges shut out what is written shorter, and the surrogates.
  have hlow : n = 224 → 160 ≤ second + 128 := fun heq => by rwa [toNat_narrowed, if_pos heq] at hlow
  have hhigh : n = 237 → second + 128 ≤ 159 := fun heq => by
    rwa [toNat_narrowed, if_pos heq] at hhigh
  refine ⟨_, rest, later, ?_, rfl, hlater⟩
  rw [encodeChar_ofNat (by omega), if_neg (by omega), if_neg (by omega), if_pos (by omega)]
  obtain ⟨v, hv⟩ : ∃ v, v = ((n - 224) * 64 + second) * 64 + last := ⟨_, rfl⟩
  have hone : v / 4096 % 16 + 224 = n := by omega
  have htwo : v / 64 % 64 = second := by omega
  have hthree : v % 64 = last := by omega
  rw [← hv, hone, htwo, hthree]
  rfl

theorem beginsWith_four (hn : 240 ≤ n) (hn' : n < 245)
    (h : scalarsFrom (some ⟨n - 240, 3, if n = 240 then 0x90 else 0x80,
      if n = 244 then 0x8F else 0xBF⟩) rest = text.map some) :
    BeginsWith (UInt8.ofNat n :: rest) text := by
  obtain ⟨second, rest, rfl, hsecond, hlow, hhigh, h⟩ :=
    continued_inside (by split <;> decide) (by split <;> decide) h
  obtain ⟨third, rest, rfl, hthird, -, -, h⟩ := continued_inside (by decide) (by decide) h
  obtain ⟨last, rest, later, rfl, hlast, -, -, rfl, hlater⟩ :=
    continued_last (by decide) (by decide) h
  have hlow : n = 240 → 144 ≤ second + 128 := fun heq => by rwa [toNat_narrowed, if_pos heq] at hlow
  have hhigh : n = 244 → second + 128 ≤ 143 := fun heq => by
    rwa [toNat_narrowed, if_pos heq] at hhigh
  refine ⟨_, rest, later, ?_, rfl, hlater⟩
  rw [encodeChar_ofNat (by omega), if_neg (by omega), if_neg (by omega), if_neg (by omega)]
  obtain ⟨v, hv⟩ : ∃ v, v = (((n - 240) * 64 + second) * 64 + third) * 64 + last := ⟨_, rfl⟩
  have hone : v / 262144 % 8 + 240 = n := by omega
  have htwo : v / 4096 % 64 = second := by omega
  have hthree : v / 64 % 64 = third := by omega
  have hfour : v % 64 = last := by omega
  rw [← hv, hone, htwo, hthree, hfour]
  rfl

theorem beginsWith_of_scalarsFrom {b : UInt8} (h : scalarsFrom none (b :: rest) = text.map some) :
    BeginsWith (b :: rest) text := by
  obtain ⟨n, hn, rfl⟩ : ∃ n < 256, b = UInt8.ofNat n :=
    ⟨b.toNat, b.toNat_lt, UInt8.ofNat_toNat.symm⟩
  have hlead := lead_eq n hn
  rw [scalarsFrom] at h
  split at hlead
  next hsmall => exact beginsWith_whole hsmall (by rwa [hlead] at h)
  next =>
  split at hlead
  next =>
    rw [hlead] at h
    exact absurd h scalarsFrom_illFormed_ne
  next hlow =>
  split at hlead
  next hhigh => exact beginsWith_two (Nat.le_of_not_lt hlow) hhigh (by rwa [hlead] at h)
  next hlow =>
  split at hlead
  next hhigh => exact beginsWith_three (Nat.le_of_not_lt hlow) hhigh (by rwa [hlead] at h)
  next hlow =>
  split at hlead
  next hhigh => exact beginsWith_four (Nat.le_of_not_lt hlow) hhigh (by rwa [hlead] at h)
  next =>
    rw [hlead] at h
    exact absurd h scalarsFrom_illFormed_ne

end FirstCharacter

/-- Well-formed octets are those that write the characters that are read. -/
theorem eq_encodeChars_of_scalarsFrom {bytes : Bytes} {text : List Char}
    (h : scalarsFrom none bytes = text.map some) : bytes = encodeChars text := by
  match bytes with
  | [] =>
    obtain rfl := List.map_eq_nil_iff.mp h.symm
    rfl
  | b :: rest =>
    obtain ⟨c, more, later, hbytes, rfl, hlater⟩ := beginsWith_of_scalarsFrom h
    have hshorter : more.length < (b :: rest).length := by
      have hpos := String.length_utf8EncodeChar c ▸ c.utf8Size_pos
      rw [hbytes, List.length_append]
      omega
    rw [hbytes, eq_encodeChars_of_scalarsFrom hlater]
    rfl
termination_by bytes.length
decreasing_by exact hshorter

theorem scalars_eq_map_some_iff {bytes : Bytes} {text : List Char} :
    scalars bytes = text.map some ↔ bytes = encodeChars text :=
  ⟨eq_encodeChars_of_scalarsFrom, fun h => h ▸ scalars_encodeChars text⟩

theorem mapM_id_eq_some_iff {found : List (Option Char)} {chars : List Char} :
    found.mapM id = some chars ↔ found = chars.map some := by
  induction found generalizing chars with
  | nil => cases chars <;> simp
  | cons first found ih =>
    rw [List.mapM_cons]
    cases first with
    | none => cases chars <;> simp
    | some c => cases chars <;> simp [Option.bind_eq_some_iff, ih, and_comm, and_assoc]

/-- Octets are read as a text just if they write it. -/
theorem decode?_eq_some_iff {bytes : Bytes} {text : String} :
    decode? bytes = some text ↔ bytes = encode text := by
  unfold decode? encode
  rw [← scalars_eq_map_some_iff, Option.map_eq_some_iff]
  constructor
  · rintro ⟨chars, hchars, rfl⟩
    rw [String.toList_ofList]
    exact mapM_id_eq_some_iff.mp hchars
  · exact fun h => ⟨text.toList, mapM_id_eq_some_iff.mpr h, String.ofList_toList⟩

end DevVm.Text.Utf8
