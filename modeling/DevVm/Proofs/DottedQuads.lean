import DevVm.Machine.Network

/-!
# Dotted quads

An `Octet` is a decimal numeral up to 255 in as few digits as it needs, and a `Quad` is four of them
with single dots between them. An octet is just what is printed for its value
(`Octet.digits_eq_decimal`): a numeral without leading zeros is determined by its value, and one below
256 has three digits at most. Hence these texts, and no others, are read as addresses
(`ofText?_eq_some_iff`), and what the host's address in a guest's network depends on is said exactly
(`hostAddress_exact`).
-/

namespace DevVm

/-! ## Numerals -/

namespace Text

theorem digitChar_of_isDigit {c : Char} (h : c.isDigit = true) :
    Nat.digitChar (c.toNat - '0'.toNat) = c ∧ c.toNat - '0'.toNat < 10 := by
  rw [Char.isDigit, Bool.and_eq_true, decide_eq_true_iff, decide_eq_true_iff] at h
  have hlow : 48 ≤ c.toNat := h.1
  have hhigh : c.toNat ≤ 57 := h.2
  have hzero : '0'.toNat = 48 := rfl
  have hlt : c.toNat - '0'.toNat < 10 := by omega
  refine ⟨Char.toNat_inj.mp ?_, hlt⟩
  rw [Nat.toNat_digitChar_of_lt_ten hlt]
  omega

/-- The digits that follow those of a number write it on. -/
theorem toDigits_append {acc : Nat} (hacc : 0 < acc) {digits : List Char}
    (h : ∀ c ∈ digits, c.isDigit = true) :
    Nat.toDigits 10 acc ++ digits = Nat.toDigits 10 (Nat.ofDigitChars 10 digits acc) := by
  induction digits generalizing acc with
  | nil => rw [List.append_nil, Nat.ofDigitChars_nil]
  | cons c digits ih =>
    obtain ⟨hc, hdigits⟩ := List.forall_mem_cons.mp h
    obtain ⟨hchar, hlt⟩ := digitChar_of_isDigit hc
    have hnext : 0 < 10 * acc + (c.toNat - '0'.toNat) := by omega
    calc Nat.toDigits 10 acc ++ c :: digits
        = Nat.toDigits 10 acc ++ Nat.toDigits 10 (c.toNat - '0'.toNat) ++ digits := by
          rw [Nat.toDigits_of_lt_base hlt, hchar, List.append_assoc, List.singleton_append]
      _ = Nat.toDigits 10 (10 * acc + (c.toNat - '0'.toNat)) ++ digits := by
          rw [Nat.toDigits_append_toDigits (by decide) hacc hlt]
      _ = Nat.toDigits 10 (Nat.ofDigitChars 10 (c :: digits) acc) := by
          rw [ih hnext hdigits, Nat.ofDigitChars_cons]

end Text

namespace Network

open Text

/-- A number up to 255 in ASCII digits, without leading zeros. -/
structure Octet where
  digits : List Char
  ascii : digits.all Char.isDigit = true
  nonempty : digits ≠ []
  leading : digits.head? = some '0' → digits = ['0']
  small : Nat.ofDigitChars 10 digits 0 ≤ 255

namespace Octet

/-- The number that an octet writes. -/
def value (o : Octet) : Nat := Nat.ofDigitChars 10 o.digits 0

theorem isDigit_of_mem (o : Octet) : ∀ c ∈ o.digits, c.isDigit = true := List.all_eq_true.mp o.ascii

theorem value_lt (o : Octet) : o.value < 256 := Nat.lt_succ_of_le o.small

/-- An octet is what is printed for its value. -/
theorem digits_eq_decimal (o : Octet) : o.digits = (decimal o.value).toList := by
  unfold decimal value
  rw [String.toList_ofList]
  have hdigits := o.isDigit_of_mem
  obtain ⟨digits, ascii, nonempty, leading, small⟩ := o
  dsimp only at hdigits ⊢
  cases digits with
  | nil => exact absurd rfl nonempty
  | cons c more =>
    obtain ⟨hc, hmore⟩ := List.forall_mem_cons.mp hdigits
    obtain ⟨hchar, hlt⟩ := digitChar_of_isDigit hc
    by_cases hzero : c = '0'
    · rw [leading (congrArg some hzero)]
      rfl
    · have hpos : 0 < c.toNat - '0'.toNat := by
        refine Nat.pos_of_ne_zero fun heq => hzero ?_
        rw [heq] at hchar
        exact hchar.symm
      have hwritten := toDigits_append hpos hmore
      rw [Nat.toDigits_of_lt_base hlt, hchar, List.singleton_append] at hwritten
      rw [Nat.ofDigitChars_cons, Nat.mul_zero, Nat.zero_add]
      exact hwritten

/-- Octets of one value are written alike. -/
theorem digits_inj {o p : Octet} : o.digits = p.digits ↔ o.value = p.value := by
  refine ⟨fun h => congrArg (Nat.ofDigitChars 10 · 0) h, fun h => ?_⟩
  rw [o.digits_eq_decimal, p.digits_eq_decimal, h]

theorem length_digits_le (o : Octet) : o.digits.length ≤ 3 := by
  rw [o.digits_eq_decimal, decimal, String.toList_ofList,
    Nat.length_toDigits_le_iff (by decide) (by decide)]
  exact Nat.lt_trans o.value_lt (by decide)

theorem dot_not_mem_digits (o : Octet) : '.' ∉ o.digits := fun h =>
  absurd (o.isDigit_of_mem '.' h) (by decide)

/-- The octet that is read from a text. -/
def asRead (o : Octet) : UInt8 := UInt8.ofNat o.value

theorem toNat_asRead (o : Octet) : o.asRead.toNat = o.value := UInt8.toNat_ofNat_of_lt' o.value_lt

theorem readOctet?_digits (o : Octet) : readOctet? o.digits = some o.asRead := by
  have hvalue : digitsValue? 0 o.digits = some o.value :=
    digitsValue?_eq_some_iff.mpr ⟨o.isDigit_of_mem, rfl⟩
  have hlt : (some o.value).filter (· < 256) = some o.value :=
    Option.filter_eq_some_iff.mpr ⟨rfl, decide_eq_true o.value_lt⟩
  unfold readOctet?
  split
  next hnil => exact absurd hnil o.nonempty
  next c more hzeros =>
    have hzero := o.leading (by rw [hzeros]; rfl)
    rw [hzeros] at hzero
    cases hzero
  next => rw [if_pos o.length_digits_le, hvalue, hlt, Option.map_some, asRead]

/-- What is read as an octet is one. -/
theorem exists_of_readOctet? {digits : List Char} {n : UInt8} (h : readOctet? digits = some n) :
    ∃ o : Octet, o.digits = digits ∧ o.asRead = n := by
  unfold readOctet? at h
  split at h
  next => cases h
  next => cases h
  next hnil hzeros =>
    obtain ⟨-, h⟩ := Option.ite_none_right_eq_some.mp h
    obtain ⟨value, hfilter, rfl⟩ := Option.map_eq_some_iff.mp h
    obtain ⟨hread, hlt⟩ := Option.filter_eq_some_iff.mp hfilter
    obtain ⟨hdigits, rfl⟩ := digitsValue?_eq_some_iff.mp hread
    have hleading : digits.head? = some '0' → digits = ['0'] := by
      intro hhead
      obtain ⟨more, rfl⟩ := List.head?_eq_some_iff.mp hhead
      cases more with
      | nil => rfl
      | cons c more => exact absurd rfl (hzeros c more)
    exact ⟨⟨digits, List.all_eq_true.mpr hdigits, hnil, hleading, Nat.le_of_lt_succ (of_decide_eq_true hlt)⟩, rfl, rfl⟩

end Octet

/-! ## Quads -/

/-- Four octets. -/
structure Quad where
  a : Octet
  b : Octet
  c : Octet
  d : Octet

namespace Quad

/-- The octets with single dots between them. -/
def text (q : Quad) : String :=
  String.ofList
    (q.a.digits ++ '.' :: (q.b.digits ++ '.' :: (q.c.digits ++ '.' :: q.d.digits)))

/-- The address that a quad is read as. -/
def asRead (q : Quad) : Ipv4 := ⟨q.a.asRead, q.b.asRead, q.c.asRead, q.d.asRead⟩

/-- The quad that ends in `.1` in the same network. -/
def gateway (q : Quad) : Quad :=
  { q with d := ⟨['1'], by decide, by decide, by decide, by decide⟩ }

theorem fields_text (q : Quad) :
    fields '.' q.text.toList = [q.a.digits, q.b.digits, q.c.digits, q.d.digits] := by
  unfold text
  rw [String.toList_ofList, fields_append q.a.dot_not_mem_digits,
    fields_append q.b.dot_not_mem_digits, fields_append q.c.dot_not_mem_digits,
    fields_of_not_mem q.d.dot_not_mem_digits]

/-- Quads of one text have the same numbers. -/
theorem values_of_text {q r : Quad} (h : q.text = r.text) :
    q.a.value = r.a.value ∧ q.b.value = r.b.value ∧ q.c.value = r.c.value ∧
      q.d.value = r.d.value := by
  have hfields := r.fields_text
  rw [← h, q.fields_text] at hfields
  simp only [List.cons.injEq, and_true] at hfields
  obtain ⟨ha, hb, hc, hd⟩ := hfields
  exact ⟨Octet.digits_inj.mp ha, Octet.digits_inj.mp hb, Octet.digits_inj.mp hc,
    Octet.digits_inj.mp hd⟩

/-- An address is printed as the quad it was read from. -/
theorem toText_asRead (q : Quad) : q.asRead.toText = q.text := by
  have hoctet (o : Octet) : (decimal o.asRead.toNat).toList = o.digits := by
    rw [o.toNat_asRead, o.digits_eq_decimal]
  rw [← String.toList_inj]
  unfold Ipv4.toText asRead text
  simp only [String.toList_append, hoctet, String.toList_ofList, List.append_assoc]
  rfl

end Quad

/-- Quads are read as addresses, and nothing else is. -/
theorem Ipv4.ofText?_eq_some_iff {text : List Char} {ip : Ipv4} :
    ofText? text = some ip ↔ ∃ q : Quad, q.text.toList = text ∧ q.asRead = ip := by
  constructor
  · intro h
    unfold ofText? at h
    split at h
    next a b c d hfields =>
      simp only [Option.bind_eq_bind, Option.bind_eq_some_iff] at h
      obtain ⟨_, ha, _, hb, _, hc, _, hd, hip⟩ := h
      obtain rfl := Option.some.inj hip
      obtain ⟨a, rfl, rfl⟩ := Octet.exists_of_readOctet? ha
      obtain ⟨b, rfl, rfl⟩ := Octet.exists_of_readOctet? hb
      obtain ⟨c, rfl, rfl⟩ := Octet.exists_of_readOctet? hc
      obtain ⟨d, rfl, rfl⟩ := Octet.exists_of_readOctet? hd
      have hjoined := joinWith_fields '.' text
      rw [hfields] at hjoined
      refine ⟨⟨a, b, c, d⟩, ?_, rfl⟩
      rw [← hjoined, Quad.text, String.toList_ofList]
      simp only [joinWith, List.append_assoc, List.singleton_append]
    next => cases h
  · rintro ⟨q, rfl, rfl⟩
    unfold ofText?
    rw [q.fields_text]
    dsimp only
    rw [q.a.readOctet?_digits, q.b.readOctet?_digits, q.c.readOctet?_digits,
      q.d.readOctet?_digits]
    rfl

theorem Ipv4.ofText?_eq_none_iff {text : List Char} :
    ofText? text = none ↔ ¬∃ q : Quad, q.text.toList = text := by
  rw [Option.eq_none_iff_forall_ne_some]
  exact ⟨fun h ⟨q, hq⟩ => h q.asRead (ofText?_eq_some_iff.mpr ⟨q, hq, rfl⟩),
    fun h ip hip => h ((ofText?_eq_some_iff.mp hip).imp fun _ hq => hq.1)⟩

end Network

open Network

/-! ## The host's address -/

namespace Machine

theorem hostAddress_text (q : Quad) : hostAddress q.text = .ok q.gateway.text := by
  have hread : Ipv4.ofText? q.text.toList = some q.asRead :=
    Ipv4.ofText?_eq_some_iff.mpr ⟨q, rfl, rfl⟩
  have hgateway : q.asRead.gateway = q.gateway.asRead := rfl
  unfold hostAddress
  rw [hread]
  dsimp only
  rw [hgateway, Quad.toText_asRead]

/-- A text that is no quad is refused as it stands. -/
theorem hostAddress_of_not_quad {g : String} (h : ¬∃ q : Quad, g = q.text) :
    hostAddress g = .error (.invalidIp g) := by
  have hnone : Ipv4.ofText? g.toList = none :=
    Ipv4.ofText?_eq_none_iff.mpr fun ⟨q, hq⟩ => h ⟨q, (String.toList_inj.mp hq).symm⟩
  unfold hostAddress
  rw [hnone]

/-- Two addresses lie in the network of one host address if they differ in their last numbers at
most. -/
theorem hostAddress_inj {q r : Quad} : hostAddress q.text = hostAddress r.text ↔
    q.a.value = r.a.value ∧ q.b.value = r.b.value ∧ q.c.value = r.c.value := by
  rw [hostAddress_text, hostAddress_text]
  constructor
  · intro h
    obtain ⟨ha, hb, hc, -⟩ := Quad.values_of_text (Except.ok.inj h)
    exact ⟨ha, hb, hc⟩
  · rintro ⟨ha, hb, hc⟩
    unfold Quad.text Quad.gateway
    rw [Octet.digits_inj.mpr ha, Octet.digits_inj.mpr hb, Octet.digits_inj.mpr hc]

/-- The host has an address in the network of every quad, and of no other text: the quad with `1` in
its last place. That is also its address in the network of that one, and two quads have one host
address exactly if they agree in their first three numbers. -/
theorem hostAddress_exact :
    (∀ g, (∃ ip, hostAddress g = .ok ip) ↔ ∃ q : Quad, g = q.text) ∧
    (∀ g, hostAddress g = .error (.invalidIp g) ↔ ¬∃ q : Quad, g = q.text) ∧
    (∀ q : Quad, hostAddress q.text = .ok q.gateway.text ∧
      hostAddress q.gateway.text = .ok q.gateway.text) ∧
    ∀ q r : Quad, hostAddress q.text = hostAddress r.text ↔
      q.a.value = r.a.value ∧ q.b.value = r.b.value ∧ q.c.value = r.c.value := by
  refine ⟨fun g => ⟨fun ⟨ip, hip⟩ => ?_, ?_⟩, fun g => ⟨fun h => ?_, hostAddress_of_not_quad⟩,
    fun q => ⟨hostAddress_text q, hostAddress_text q.gateway⟩, fun _ _ => hostAddress_inj⟩
  · unfold hostAddress at hip
    split at hip
    next hread =>
      obtain ⟨q, hq, -⟩ := Ipv4.ofText?_eq_some_iff.mp hread
      exact ⟨q, (String.toList_inj.mp hq).symm⟩
    next => cases hip
  · rintro ⟨q, rfl⟩
    exact ⟨_, hostAddress_text q⟩
  · rintro ⟨q, rfl⟩
    rw [hostAddress_text] at h
    cases h

example : hostAddress "192.168.098.98" = .error (.invalidIp "192.168.098.98") := rfl

end Machine

end DevVm
