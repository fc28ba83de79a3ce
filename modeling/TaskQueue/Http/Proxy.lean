import Mathlib.Data.List.GetD
import TaskQueue.Lib.JsString

/-!
# The client's address behind proxies

The limiters and the loopback check go by `req.ip`, which Express takes from the
chain of addresses a request came through: the socket's, and then those its
`X-Forwarded-For` tells, the last one first.  Each proxy appends the address it
got the request from, and what stood in the header before is the client's own
writing.  A hop count says how far along the chain to look.
-/

namespace TaskQueue

open Ecma

/-- A text that an address header may be made of. -/
structure IsAddress (address : JsString) : Prop where
  ne_nil : address ≠ []
  comma : (0x2C : UInt16) ∉ address
  space : (0x20 : UInt16) ∉ address

/-- The addresses a request came through, the nearest first. -/
def addressChain (addresses : JsString → List JsString) (remoteAddress : JsString)
    (header : Option JsString) : List JsString :=
  remoteAddress :: (header.map addresses).getD []

/-- Express's reading of an `X-Forwarded-For` value, its last address first, and of the
setting `trust proxy`. -/
structure ForwardedHeader where
  addresses : JsString → List JsString
  addresses_one : ∀ address, IsAddress address → addresses address = [address]
  addresses_append : ∀ value address, IsAddress address →
    addresses (value ++ js ", " ++ address) = address :: addresses value
  /-- `req.ip` under `app.set('trust proxy', hops)`. -/
  reqIp : Nat → JsString → Option JsString → JsString
  /-- It is the address that many hops along the chain, or the farthest there is. -/
  hopRule : ∀ hops remoteAddress header,
    let chain := addressChain addresses remoteAddress header
    reqIp hops remoteAddress header = chain.getD (min hops (chain.length - 1)) remoteAddress

variable (forwarded : ForwardedHeader)

def ForwardedHeader.written (header : Option JsString) : List JsString :=
  (header.map forwarded.addresses).getD []

/-! ## Proxies -/

/-- What a proxy makes of the header of a request it got from `peer`. -/
def appendForwarded (header : Option JsString) (peer : JsString) : JsString :=
  match header with
  | none => peer
  | some value => value ++ js ", " ++ peer

/-- The socket's address and the header as the service sees them, after the request
passed the proxies in this order. -/
def relay (peer : JsString) (header : Option JsString) : List JsString → JsString × Option JsString
  | [] => (peer, header)
  | proxy :: proxies => relay proxy (some (appendForwarded header peer)) proxies

def ForwardedHeader.clientIp (hops : Nat) (client : JsString) (header : Option JsString)
    (proxies : List JsString) : JsString :=
  forwarded.reqIp hops (relay client header proxies).1 (relay client header proxies).2

variable {forwarded}

theorem ForwardedHeader.written_append {header : Option JsString} {peer : JsString}
    (h : IsAddress peer) :
    forwarded.written (some (appendForwarded header peer)) = peer :: forwarded.written header := by
  cases header with
  | none => exact forwarded.addresses_one peer h
  | some value => exact forwarded.addresses_append value peer h

/-- The proxies come first, then the client, and last what the client wrote itself. -/
theorem ForwardedHeader.chain_relay {client : JsString} {proxies : List JsString}
    (hclient : IsAddress client) (hproxies : ∀ proxy ∈ proxies, IsAddress proxy)
    (header : Option JsString) :
    addressChain forwarded.addresses (relay client header proxies).1
        (relay client header proxies).2 =
      proxies.reverse ++ client :: forwarded.written header := by
  induction proxies generalizing client header with
  | nil => rfl
  | cons proxy proxies ih =>
      have hproxy : IsAddress proxy := hproxies proxy List.mem_cons_self
      have hrest : ∀ p ∈ proxies, IsAddress p := fun p hp =>
        hproxies p (List.mem_cons_of_mem _ hp)
      rw [relay, ih hproxy hrest, written_append hclient, List.reverse_cons, List.append_assoc]
      rfl

theorem ForwardedHeader.clientIp_eq {client : JsString} {proxies : List JsString}
    (hclient : IsAddress client) (hproxies : ∀ proxy ∈ proxies, IsAddress proxy) (hops : Nat)
    (header : Option JsString) :
    forwarded.clientIp hops client header proxies =
      (proxies.reverse ++ client :: forwarded.written header).getD
        (min hops (proxies.length + (forwarded.written header).length))
        (relay client header proxies).1 := by
  have hlength : (proxies.reverse ++ client :: forwarded.written header).length - 1 =
      proxies.length + (forwarded.written header).length := by
    simp only [List.length_append, List.length_reverse, List.length_cons]
    omega
  rw [clientIp, forwarded.hopRule, chain_relay hclient hproxies, hlength]

section

variable {client : JsString} {proxies : List JsString} (hclient : IsAddress client)
  (hproxies : ∀ proxy ∈ proxies, IsAddress proxy)

include hclient hproxies

/-- With a hop for each proxy the address is the client's. -/
theorem ForwardedHeader.clientIp_of_eq (header : Option JsString) :
    forwarded.clientIp proxies.length client header proxies = client := by
  have hmin : min proxies.length (proxies.length + (forwarded.written header).length) =
      proxies.reverse.length := by
    rw [List.length_reverse]
    omega
  rw [clientIp_eq hclient hproxies, hmin, List.getD_append_right _ _ _ _ (Nat.le_refl _),
    Nat.sub_self, List.getD_cons_zero]

/-- With fewer it is that of a proxy, whoever the client is. -/
theorem ForwardedHeader.clientIp_of_lt {hops : Nat} (hlt : hops < proxies.length)
    (header : Option JsString) :
    forwarded.clientIp hops client header proxies = proxies.reverse.getD hops [] := by
  have hmin : min hops (proxies.length + (forwarded.written header).length) = hops := by omega
  have hlength : hops < proxies.reverse.length := by
    rw [List.length_reverse]
    exact hlt
  rw [clientIp_eq hclient hproxies, hmin, List.getD_append _ _ _ _ hlength,
    List.getD_eq_getElem _ _ hlength, List.getD_eq_getElem _ _ hlength]

/-- With no more hops than proxies, what the client wrote is without effect. -/
theorem ForwardedHeader.clientIp_congr {hops : Nat} (hle : hops ≤ proxies.length)
    (header header' : Option JsString) :
    forwarded.clientIp hops client header proxies =
      forwarded.clientIp hops client header' proxies := by
  rcases Nat.lt_or_eq_of_le hle with hlt | rfl
  · rw [clientIp_of_lt hclient hproxies hlt, clientIp_of_lt hclient hproxies hlt]
  · rw [clientIp_of_eq hclient hproxies, clientIp_of_eq hclient hproxies]

end

/-! ## A reader of the header -/

def isSpace (u : UInt16) : Bool := u == 0x20

def stripSpaces (s : JsString) : JsString :=
  ((s.dropWhile isSpace).reverse.dropWhile isSpace).reverse

def forwardedAddresses (value : JsString) : List JsString :=
  (((split 0x2C value).map stripSpaces).filter fun entry => !entry.isEmpty).reverse

theorem dropWhile_isSpace {s : JsString} (h : (0x20 : UInt16) ∉ s) : s.dropWhile isSpace = s := by
  cases s with
  | nil => rfl
  | cons u s =>
      have hu : isSpace u = false := by
        rw [isSpace, beq_eq_false_iff_ne]
        exact fun heq => h (heq ▸ List.mem_cons_self)
      rw [List.dropWhile_cons_of_neg (by rw [hu]; decide)]

theorem stripSpaces_address {address : JsString} (h : IsAddress address) :
    stripSpaces address = address ∧ stripSpaces (0x20 :: address) = address := by
  have hreverse : (0x20 : UInt16) ∉ address.reverse := fun hmem =>
    h.space (List.mem_reverse.1 hmem)
  have hhead : (0x20 :: address).dropWhile isSpace = address.dropWhile isSpace :=
    List.dropWhile_cons_of_pos rfl
  unfold stripSpaces
  rw [hhead, dropWhile_isSpace h.space, dropWhile_isSpace hreverse, List.reverse_reverse]
  exact ⟨rfl, rfl⟩

def expressForwarded : ForwardedHeader where
  addresses := forwardedAddresses
  addresses_one := by
    intro address h
    have hkept : [address].filter (fun entry => !entry.isEmpty) = [address] := by
      simpa using h.ne_nil
    rw [forwardedAddresses, split_of_notMem h.comma, List.map_singleton,
      (stripSpaces_address h).1, hkept]
    rfl
  addresses_append := by
    intro value address h
    have hkept : [address].filter (fun entry => !entry.isEmpty) = [address] := by
      simpa using h.ne_nil
    have hcomma : (0x2C : UInt16) ∉ 0x20 :: address := by
      simpa using h.comma
    have hsplit : split 0x2C (value ++ js ", " ++ address) =
        split 0x2C value ++ [0x20 :: address] := by
      rw [List.append_assoc, ← split_of_notMem hcomma]
      exact split_append_sep 0x2C value (0x20 :: address)
    rw [forwardedAddresses, hsplit, List.map_append, List.map_singleton,
      (stripSpaces_address h).2, List.filter_append, List.reverse_append, hkept]
    rfl
  reqIp hops remoteAddress header :=
    let chain := addressChain forwardedAddresses remoteAddress header
    chain.getD (min hops (chain.length - 1)) remoteAddress
  hopRule := fun _ _ _ => rfl

end TaskQueue
