import TaskQueue.Lib.JsString

/-!
# Base64

The encoding of RFC 4648 with padding, and a decoder that skips whatever is not
in the alphabet.  Six bits at a time on one side, eight on the other; the decoder
inverts the encoder on every list of bytes.
-/

namespace Base64

open Ecma

def unitOf (n : Nat) : UInt16 :=
  if n < 26 then UInt16.ofNat (0x41 + n)
  else if n < 52 then UInt16.ofNat (0x61 + (n - 26))
  else if n < 62 then UInt16.ofNat (0x30 + (n - 52))
  else if n = 62 then 0x2B
  else 0x2F

def valueOf (u : UInt16) : Option Nat :=
  let n := u.toNat
  if 0x41 ≤ n ∧ n ≤ 0x5A then some (n - 0x41)
  else if 0x61 ≤ n ∧ n ≤ 0x7A then some (n - 0x61 + 26)
  else if 0x30 ≤ n ∧ n ≤ 0x39 then some (n - 0x30 + 52)
  else if n = 0x2B then some 62
  else if n = 0x2F then some 63
  else none

/-- Bytes as six-bit values, the last one filled up with zeros. -/
def sextets : List UInt8 → List Nat
  | [] => []
  | [a] => [a.toNat / 4, a.toNat % 4 * 16]
  | [a, b] => [a.toNat / 4, a.toNat % 4 * 16 + b.toNat / 16, b.toNat % 16 * 4]
  | a :: b :: c :: bytes =>
      a.toNat / 4 :: (a.toNat % 4 * 16 + b.toNat / 16) :: (b.toNat % 16 * 4 + c.toNat / 64) ::
        c.toNat % 64 :: sextets bytes

/-- Six-bit values as bytes; what does not fill a byte is dropped. -/
def octets : List Nat → List UInt8
  | p :: q :: r :: s :: rest =>
      UInt8.ofNat (p * 4 + q / 16) :: UInt8.ofNat (q % 16 * 16 + r / 4) ::
        UInt8.ofNat (r % 4 * 64 + s) :: octets rest
  | [p, q, r] => [UInt8.ofNat (p * 4 + q / 16), UInt8.ofNat (q % 16 * 16 + r / 4)]
  | [p, q] => [UInt8.ofNat (p * 4 + q / 16)]
  | _ => []

def padding (bytes : List UInt8) : JsString := List.replicate ((3 - bytes.length % 3) % 3) 0x3D

def encode (bytes : List UInt8) : JsString := (sextets bytes).map unitOf ++ padding bytes

def decode (text : JsString) : List UInt8 := octets (text.filterMap valueOf)

/-! ## The alphabet -/

theorem valueOf_unitOf {n : Nat} (h : n < 64) : valueOf (unitOf n) = some n := by
  decide +revert

theorem sextets_lt (bytes : List UInt8) : ∀ n ∈ sextets bytes, n < 64 := by
  fun_induction sextets bytes with
  | case1 => simp
  | case2 a =>
      have ha := a.toNat_lt
      simp only [List.mem_cons, List.not_mem_nil, or_false, forall_eq_or_imp, forall_eq]
      omega
  | case3 a b =>
      have ha := a.toNat_lt
      have hb := b.toNat_lt
      simp only [List.mem_cons, List.not_mem_nil, or_false, forall_eq_or_imp, forall_eq]
      omega
  | case4 a b c bytes ih =>
      have ha := a.toNat_lt
      have hb := b.toNat_lt
      have hc := c.toNat_lt
      simp only [List.mem_cons, forall_eq_or_imp]
      exact ⟨by omega, by omega, by omega, by omega, ih⟩

/-- What is written is in the alphabet, or padding. -/
theorem mem_encode {bytes : List UInt8} {u : UInt16} (h : u ∈ encode bytes) :
    (∃ n, n < 64 ∧ u = unitOf n) ∨ u = 0x3D := by
  rw [encode, List.mem_append] at h
  rcases h with h | h
  · obtain ⟨n, hn, rfl⟩ := List.mem_map.1 h
    exact Or.inl ⟨n, sextets_lt bytes n hn, rfl⟩
  · exact Or.inr (List.eq_of_mem_replicate h)

/-! ## Decoding inverts encoding -/

theorem filterMap_valueOf_encode (bytes : List UInt8) :
    (encode bytes).filterMap valueOf = sextets bytes := by
  have hpadding : (padding bytes).filterMap valueOf = [] := by
    rw [List.filterMap_eq_nil_iff]
    intro u hu
    rw [List.eq_of_mem_replicate hu]
    rfl
  have hunits : ∀ ns : List Nat, (∀ n ∈ ns, n < 64) → (ns.map unitOf).filterMap valueOf = ns := by
    intro ns hns
    induction ns with
    | nil => rfl
    | cons n ns ih =>
        rw [List.map_cons, List.filterMap_cons_some (valueOf_unitOf (hns n List.mem_cons_self)),
          ih fun m hm => hns m (List.mem_cons_of_mem _ hm)]
  rw [encode, List.filterMap_append, hpadding, hunits _ (sextets_lt bytes), List.append_nil]

theorem octets_sextets (bytes : List UInt8) : octets (sextets bytes) = bytes := by
  have hbyte : ∀ (a : UInt8) (n : Nat), n = a.toNat → UInt8.ofNat n = a := by
    rintro a n rfl
    exact UInt8.ofNat_toNat
  fun_induction sextets bytes with
  | case1 => rfl
  | case2 a =>
      have ha := a.toNat_lt
      rw [octets, hbyte a _ (by omega)]
  | case3 a b =>
      have ha := a.toNat_lt
      have hb := b.toNat_lt
      rw [octets, hbyte a _ (by omega), hbyte b _ (by omega)]
  | case4 a b c bytes ih =>
      have ha := a.toNat_lt
      have hb := b.toNat_lt
      have hc := c.toNat_lt
      rw [octets, hbyte a _ (by omega), hbyte b _ (by omega), hbyte c _ (by omega), ih]

theorem decode_encode (bytes : List UInt8) : decode (encode bytes) = bytes := by
  rw [decode, filterMap_valueOf_encode, octets_sextets]

end Base64
