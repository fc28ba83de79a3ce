import Mathlib.Data.List.TakeWhile
import TaskQueue.Lib.JsString

/-!
# Header values of `fetch`

A header value is a byte string that is normalised before it is sent: white space
at its ends is stripped.  A unit that is no byte, or a control character other than
a tab, makes the call throw, when the headers are made or when the request is
written.  The main fact is which values arrive unchanged.
-/

namespace Fetch

open Ecma

/-- Tab, line feed, carriage return and space. -/
def isHttpSpace (u : UInt16) : Bool := u == 0x09 || u == 0x0A || u == 0x0D || u == 0x20

/-- The bytes no header value may contain: the control characters, but for the tab. -/
def isForbidden (u : UInt16) : Bool := (u < 0x20 && u != 0x09) || u == 0x7F

def isByte (u : UInt16) : Bool := u ≤ 0xFF

def normalizeValue (s : JsString) : JsString :=
  ((s.dropWhile isHttpSpace).reverse.dropWhile isHttpSpace).reverse

/-- The value a header is sent with; `none` when the call throws. -/
def headerValue (s : JsString) : Option JsString :=
  if s.all isByte && (normalizeValue s).all (fun u => !isForbidden u) then some (normalizeValue s)
  else none

def sentHeaders (headers : List (JsString × JsString)) : Option (List (JsString × JsString)) :=
  headers.mapM fun h => (headerValue h.2).map fun value => (h.1, value)

/-- A value without units that are no byte, or are forbidden, or are stripped. -/
structure HeaderSafe (s : JsString) : Prop where
  units : ∀ u ∈ s, isByte u = true ∧ isForbidden u = false
  head : ∀ u ∈ s.head?, isHttpSpace u = false
  last : ∀ u ∈ s.getLast?, isHttpSpace u = false

theorem dropWhile_eq_self_iff_head {p : UInt16 → Bool} {s : JsString} :
    s.dropWhile p = s ↔ ∀ u ∈ s.head?, p u = false := by
  rw [List.dropWhile_eq_self_iff]
  cases s with
  | nil => simp
  | cons u s => simp

theorem normalizeValue_eq_self_iff {s : JsString} :
    normalizeValue s = s ↔
      (∀ u ∈ s.head?, isHttpSpace u = false) ∧ ∀ u ∈ s.getLast?, isHttpSpace u = false := by
  rw [← dropWhile_eq_self_iff_head, ← List.head?_reverse, ← dropWhile_eq_self_iff_head]
  unfold normalizeValue
  constructor
  · intro h
    have hlength := congrArg List.length h
    have hinner := List.length_dropWhile_le isHttpSpace (s.dropWhile isHttpSpace).reverse
    rw [List.length_reverse] at hlength hinner
    have hfirst : s.dropWhile isHttpSpace = s := by
      apply (List.dropWhile_suffix isHttpSpace).eq_of_length
      have := List.length_dropWhile_le isHttpSpace s
      omega
    rw [hfirst] at h
    exact ⟨hfirst, by rw [← List.reverse_inj, h, List.reverse_reverse]⟩
  · rintro ⟨hfirst, hlast⟩
    rw [hfirst, hlast, List.reverse_reverse]

/-- A value arrives unchanged exactly when it is safe. -/
theorem headerValue_eq_self_iff {s : JsString} : headerValue s = some s ↔ HeaderSafe s := by
  unfold headerValue
  constructor
  · intro h
    split at h
    · rename_i hvalid
      rw [Bool.and_eq_true, List.all_eq_true, List.all_eq_true] at hvalid
      have hself : normalizeValue s = s := Option.some.inj h
      rw [hself] at hvalid
      obtain ⟨hhead, hlast⟩ := normalizeValue_eq_self_iff.1 hself
      refine ⟨fun u hu => ⟨hvalid.1 u hu, ?_⟩, hhead, hlast⟩
      have hallowed := hvalid.2 u hu
      simpa using hallowed
    · cases h
  · intro h
    have hself : normalizeValue s = s := normalizeValue_eq_self_iff.2 ⟨h.head, h.last⟩
    have hbytes : s.all isByte = true := List.all_eq_true.2 fun u hu => (h.units u hu).1
    have hallowed : s.all (fun u => !isForbidden u) = true := by
      rw [List.all_eq_true]
      intro u hu
      rw [(h.units u hu).2]
      rfl
    rw [hself, hbytes, hallowed]
    rfl

instance (s : JsString) : Decidable (HeaderSafe s) :=
  decidable_of_iff (headerValue s = some s) headerValue_eq_self_iff

theorem headerValue_injOn {s t : JsString} (hs : HeaderSafe s) (ht : HeaderSafe t)
    (h : headerValue s = headerValue t) : s = t := by
  rw [headerValue_eq_self_iff.2 hs, headerValue_eq_self_iff.2 ht] at h
  exact Option.some.inj h

end Fetch
