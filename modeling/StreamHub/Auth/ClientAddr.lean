import StreamHub.Library.Go

/-!
# The address of a client

`clientIP` and `isTrusted` of `internal/auth/middleware.go`.  The address keys the limiter
of failed logins, so no client may choose it: behind a trusted proxy it depends on nothing
before the last hop that is not a trusted proxy (`clientIP_unforgeable`).
-/

namespace StreamHub.Auth

open Library Library.Text

/-- The trusted networks, with what is used of the package `netip`. -/
structure Proxies (Addr Net : Type) where
  trusted : List Net
  parseAddr : Str → Option Addr
  unmap : Addr → Addr
  text : Addr → Str
  contains : Net → Addr → Bool

namespace Proxies

variable {Addr Net : Type} (a : Proxies Addr Net) (go : Go)

def isTrusted (ip : Addr) : Bool := a.trusted.any fun p => a.contains p ip

/-- `ParseAddr` and `Unmap` -/
def addrOf (s : Str) : Option Addr := (a.parseAddr s).map a.unmap

/-- The hops of all header lines -/
def hops (xff : List Str) : List Str :=
  ((xff.flatMap (split 0x2c)).map go.trimSpace).filter (· ≠ [])

/-- The loop of `clientIP` over the hops, the last one first -/
def walkHops (peer : Addr) : List Str → Addr
  | [] => peer
  | hop :: rest =>
    match a.addrOf hop with
    | none => peer
    | some ip => if a.isTrusted ip then walkHops ip rest else ip

def remoteHost (remoteAddr : Str) : Str :=
  match go.splitHostPort remoteAddr with
  | .ok (host, _) => host
  | .error _ => remoteAddr

def clientIP (remoteAddr : Str) (xff : List Str) : Str :=
  match a.addrOf (remoteHost go remoteAddr) with
  | none => remoteHost go remoteAddr
  | some peer =>
    if a.isTrusted peer then a.text (a.walkHops peer (hops go xff).reverse) else a.text peer

/-- The hop is the address of a trusted proxy. -/
def TrustedHop (hop : Str) : Prop := ∃ ip, a.addrOf hop = some ip ∧ a.isTrusted ip = true

variable {a} {hop : Str} (hhop : ¬ a.TrustedHop hop)

include hhop

lemma walkHops_append (peer : Addr) (back front : List Str) :
    a.walkHops peer (back ++ hop :: front) = a.walkHops peer (back ++ [hop]) := by
  induction back generalizing peer with
  | nil =>
    rw [List.nil_append, List.nil_append, walkHops, walkHops]
    split
    · rfl
    rename_i ip hip
    have huntrusted : ¬ a.isTrusted ip = true := fun h => hhop ⟨ip, hip, h⟩
    rw [if_neg huntrusted, if_neg huntrusted]
  | cons h back ih =>
    rw [List.cons_append, List.cons_append, walkHops, walkHops]
    split
    · rfl
    · rw [ih]

lemma walkHops_stop {ip : Addr} (hip : a.addrOf hop = some ip) (peer : Addr)
    {back : List Str} (hback : ∀ h ∈ back, a.TrustedHop h) :
    a.walkHops peer (back ++ [hop]) = ip := by
  induction back generalizing peer with
  | nil =>
    rw [List.nil_append, walkHops, hip]
    exact if_neg fun htrusted => hhop ⟨ip, hip, htrusted⟩
  | cons h back ih =>
    obtain ⟨ip', hip', htrusted⟩ := hback h List.mem_cons_self
    rw [List.cons_append, walkHops, hip']
    exact (if_pos htrusted).trans (ih _ fun h' hmem => hback h' (List.mem_cons_of_mem h hmem))

omit hhop

/-- A peer that is not a trusted proxy is the client; of the hops a trusted one reports, those
before the last untrusted one do not matter, and that one is the client if it is an address. -/
theorem clientIP_unforgeable (a : Proxies Addr Net) (go : Go) (remoteAddr : Str) :
    (a.addrOf (remoteHost go remoteAddr) = none →
      ∀ xff, a.clientIP go remoteAddr xff = remoteHost go remoteAddr) ∧
    ∀ peer, a.addrOf (remoteHost go remoteAddr) = some peer →
      (a.isTrusted peer = false → ∀ xff, a.clientIP go remoteAddr xff = a.text peer) ∧
      (a.isTrusted peer = true →
        ∀ hop back, ¬ a.TrustedHop hop → (∀ h ∈ back, a.TrustedHop h) →
          (∀ xff xff' front front', hops go xff = front ++ hop :: back →
            hops go xff' = front' ++ hop :: back →
            a.clientIP go remoteAddr xff = a.clientIP go remoteAddr xff') ∧
          ∀ xff front ip, hops go xff = front ++ hop :: back → a.addrOf hop = some ip →
            a.clientIP go remoteAddr xff = a.text ip) := by
  refine ⟨fun hpeer xff => by rw [clientIP, hpeer], fun peer hpeer => ⟨?_, ?_⟩⟩
  · intro huntrusted xff
    simp [clientIP, hpeer, huntrusted]
  intro htrusted hop back hhop hback
  have hwalk : ∀ xff front, hops go xff = front ++ hop :: back →
      a.clientIP go remoteAddr xff = a.text (a.walkHops peer (back.reverse ++ [hop])) := by
    intro xff front hxff
    rw [← walkHops_append hhop _ _ front.reverse]
    simp [clientIP, hpeer, htrusted, hxff]
  constructor
  · intro xff xff' front front' hxff hxff'
    rw [hwalk xff front hxff, hwalk xff' front' hxff']
  · intro xff front ip hxff hip
    rw [hwalk xff front hxff, walkHops_stop hhop hip _ (by simpa using hback)]

end Proxies

end StreamHub.Auth
