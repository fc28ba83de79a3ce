import Mathlib.Data.List.TakeWhile
import TaskQueue.Lib.JsNumber
import TaskQueue.Lib.Percent

/-!
# IPv6 addresses in URLs

The IPv6 parser and serializer of the URL standard.  An address is eight pieces; a
text may leave out one run of zero pieces, and write the last two as four decimal
numbers.
-/

namespace Ipv6

open Ecma Percent

/-! ## Parsing -/

/-- One of the four decimal numbers: no leading zero, at most 255. -/
def octet (part : JsString) : Option Nat :=
  match parseDigits 10 part with
  | some n => if 255 < n ∨ (part.head? = some 0x30 ∧ part.length ≠ 1) then none else some n
  | none => none

def embedded (text : JsString) : Option (List Nat) :=
  match (split 0x2E text).map octet with
  | [some a, some b, some c, some d] => some [a * 256 + b, c * 256 + d]
  | _ => none

def pieceDigits (text : JsString) : JsString :=
  (text.take 4).takeWhile fun u => (hexDigitValue u).isSome

def pieceValue (digits : JsString) : Nat := (digitsValue 16 0 digits).getD 0

/-- The pieces of a text, and before which piece a run of zeros was left out.  At most
`room` pieces may still come. -/
def pieces : Nat → JsString → List Nat → Option Nat → Option (List Nat × Option Nat)
  | _, [], known, compress => some (known, compress)
  | 0, _ :: _, _, _ => none
  | room + 1, u :: text, known, compress =>
      if u = 0x3A then
        if compress.isSome then none
        else pieces room text (known ++ [0]) (some (known.length + 1))
      else
        let digits := pieceDigits (u :: text)
        match (u :: text).drop digits.length with
        | [] => some (known ++ [pieceValue digits], compress)
        | v :: rest =>
            if v = 0x2E then
              if digits = [] ∨ 6 < known.length then none
              else (embedded (u :: text)).map fun last => (known ++ last, compress)
            else if v = 0x3A then
              if rest = [] then none
              else pieces room rest (known ++ [pieceValue digits]) compress
            else none

def expand : List Nat × Option Nat → Option (List Nat)
  | (known, some k) => some (known.take k ++ List.replicate (8 - known.length) 0 ++ known.drop k)
  | (known, none) => if known.length = 8 then some known else none

def parse (text : JsString) : Option (List Nat) :=
  if text.head? = some 0x3A then
    if text.tail.head? = some 0x3A then (pieces 7 (text.drop 2) [0] (some 1)).bind expand else none
  else (pieces 8 text [] none).bind expand

/-! ## Serializing -/

def hexNumeral (n : Nat) : JsString :=
  if n = 0 then [0x30]
  else (Nat.digits 16 n).reverse.map fun d => UInt16.ofNat (if d < 10 then 0x30 + d else 0x57 + d)

/-- Where the first longest run of zero pieces starts, and its length; a length of one
when no run is longer. -/
def longestRun (address : List Nat) : Nat × Nat :=
  (List.range address.length).foldl
    (fun best i =>
      let run := ((address.drop i).takeWhile (· == 0)).length
      if best.2 < run then (i, run) else best) (0, 1)

def joined (address : List Nat) : JsString := [0x3A].intercalate (address.map hexNumeral)

def serialize (address : List Nat) : JsString :=
  let (start, run) := longestRun address
  if run = 1 then joined address
  else joined (address.take start) ++ [0x3A, 0x3A] ++ joined (address.drop (start + run))

/-! ## What an address is written with -/

/-- A digit in either case, a colon or a point. -/
def AddressUnit (u : UInt16) : Prop := (hexDigitValue u).isSome = true ∨ u = 0x3A ∨ u = 0x2E

theorem hexDigitValue_of_digitValue {u : UInt16} {d : Nat} (h : digitValue u = some d)
    (hd : d < 10) : (hexDigitValue u).isSome = true := by
  simp only [digitValue] at h
  unfold hexDigitValue
  split at h
  · rename_i hdigit
    simp [hdigit]
  split at h
  · obtain rfl := Option.some.inj h
    omega
  split at h
  · obtain rfl := Option.some.inj h
    omega
  · cases h

theorem hexDigitValue_of_digitsValue {acc n : Nat} {s : JsString}
    (h : digitsValue 10 acc s = some n) : ∀ u ∈ s, (hexDigitValue u).isSome = true := by
  induction s generalizing acc with
  | nil => simp
  | cons v s ih =>
      rw [digitsValue] at h
      cases hv : digitValue v with
      | none =>
          rw [hv] at h
          cases h
      | some d =>
          rw [hv] at h
          by_cases hd : d < 10
          · simp only [if_pos hd] at h
            intro u hu
            rcases List.mem_cons.1 hu with hu | hu
            · rw [hu]
              exact hexDigitValue_of_digitValue hv hd
            · exact ih h u hu
          · simp [if_neg hd] at h

theorem hexDigitValue_of_octet {part : JsString} {n : Nat} (h : octet part = some n) :
    ∀ u ∈ part, (hexDigitValue u).isSome = true := by
  unfold octet parseDigits at h
  cases part with
  | nil => simp
  | cons v part =>
      simp only [List.isEmpty_cons, Bool.false_eq_true, if_false] at h
      cases hvalue : digitsValue 10 0 (v :: part) with
      | none =>
          rw [hvalue] at h
          cases h
      | some m => exact hexDigitValue_of_digitsValue hvalue

theorem mem_split {sep u : UInt16} {s : JsString} (h : u ∈ s) :
    u = sep ∨ ∃ part ∈ split sep s, u ∈ part := by
  induction s with
  | nil => cases h
  | cons v s ih =>
      rw [split]
      by_cases hv : v = sep
      · rw [if_pos hv]
        rcases List.mem_cons.1 h with h | h
        · exact Or.inl (h.trans hv)
        · rcases ih h with hsep | ⟨part, hpart, hmem⟩
          · exact Or.inl hsep
          · exact Or.inr ⟨part, List.mem_cons_of_mem _ hpart, hmem⟩
      · rw [if_neg hv]
        cases hparts : split sep s with
        | nil =>
            have hlength := length_split sep s
            rw [hparts] at hlength
            simp at hlength
        | cons part parts =>
            rcases List.mem_cons.1 h with h | h
            · exact Or.inr ⟨v :: part, List.mem_cons_self, by rw [h]; exact List.mem_cons_self⟩
            · rcases ih h with hsep | ⟨part', hpart, hmem⟩
              · exact Or.inl hsep
              · rw [hparts] at hpart
                rcases List.mem_cons.1 hpart with hpart | hpart
                · refine Or.inr ⟨v :: part, List.mem_cons_self, ?_⟩
                  rw [← hpart]
                  exact List.mem_cons_of_mem _ hmem
                · exact Or.inr ⟨part', List.mem_cons_of_mem _ hpart, hmem⟩

theorem addressUnit_of_embedded {text : JsString} {last : List Nat}
    (h : embedded text = some last) : ∀ u ∈ text, AddressUnit u := by
  have hoctets : ∀ part ∈ split 0x2E text, ∃ n, octet part = some n := by
    unfold embedded at h
    split at h
    · rename_i a b c d hparts
      intro part hpart
      have hmem : octet part ∈ (split 0x2E text).map octet := List.mem_map_of_mem hpart
      rw [hparts] at hmem
      simp only [List.mem_cons, List.not_mem_nil, or_false] at hmem
      rcases hmem with hmem | hmem | hmem | hmem <;> exact ⟨_, hmem⟩
    · cases h
  intro u hu
  rcases mem_split hu with hsep | ⟨part, hpart, hmem⟩
  · exact Or.inr (Or.inr hsep)
  · obtain ⟨n, hn⟩ := hoctets part hpart
    exact Or.inl (hexDigitValue_of_octet hn u hmem)

theorem pieceDigits_append_drop (text : JsString) :
    pieceDigits text ++ text.drop (pieceDigits text).length = text := by
  have hprefix : pieceDigits text <+: text :=
    (List.takeWhile_prefix _).trans (List.take_prefix 4 text)
  exact List.prefix_iff_eq_append.1 hprefix

theorem addressUnit_of_mem_pieceDigits {text : JsString} {u : UInt16} (h : u ∈ pieceDigits text) :
    AddressUnit u := Or.inl (List.mem_takeWhile_imp (p := fun v => (hexDigitValue v).isSome) h)

theorem addressUnit_of_pieces {room : Nat} {text : JsString} {known : List Nat}
    {compress : Option Nat} {r : List Nat × Option Nat}
    (h : pieces room text known compress = some r) : ∀ u ∈ text, AddressUnit u := by
  induction room generalizing text known compress with
  | zero =>
      cases text with
      | nil => simp
      | cons v text => cases h
  | succ room ih =>
      cases text with
      | nil => simp
      | cons v text =>
          rw [pieces] at h
          by_cases hv : v = 0x3A
          · rw [if_pos hv] at h
            split at h
            · cases h
            · intro u hu
              rcases List.mem_cons.1 hu with hu | hu
              · exact Or.inr (Or.inl (hu.trans hv))
              · exact ih h u hu
          · rw [if_neg hv] at h
            dsimp only at h
            have hwhole := pieceDigits_append_drop (v :: text)
            split at h
            · rename_i hdrop
              rw [hdrop, List.append_nil] at hwhole
              intro u hu
              rw [← hwhole] at hu
              exact addressUnit_of_mem_pieceDigits hu
            · rename_i w rest hdrop
              split at h
              · split at h
                · cases h
                · obtain ⟨last, hlast, -⟩ := Option.map_eq_some_iff.1 h
                  exact addressUnit_of_embedded hlast
              split at h
              · rename_i hw
                split at h
                · cases h
                · rw [hdrop] at hwhole
                  intro u hu
                  rw [← hwhole, List.mem_append, List.mem_cons] at hu
                  rcases hu with hu | hu | hu
                  · exact addressUnit_of_mem_pieceDigits hu
                  · exact Or.inr (Or.inl (hu.trans hw))
                  · exact ih h u hu
              · cases h

/-- An address is written with hexadecimal digits, colons and points only. -/
theorem addressUnit_of_parse {text : JsString} {address : List Nat}
    (h : parse text = some address) : ∀ u ∈ text, AddressUnit u := by
  unfold parse at h
  split at h
  · rename_i hfirst
    split at h
    · rename_i hsecond
      obtain ⟨r, hr, -⟩ := Option.bind_eq_some_iff.1 h
      match text, hfirst, hsecond with
      | v :: w :: text, hfirst, hsecond =>
          intro u hu
          rcases List.mem_cons.1 hu with hu | hu
          · exact Or.inr (Or.inl (hu.trans (Option.some.inj hfirst)))
          rcases List.mem_cons.1 hu with hu | hu
          · exact Or.inr (Or.inl (hu.trans (Option.some.inj hsecond)))
          · exact addressUnit_of_pieces hr u hu
    · cases h
  · obtain ⟨r, hr, -⟩ := Option.bind_eq_some_iff.1 h
    exact addressUnit_of_pieces hr

end Ipv6
