import Proxyshop.Contracts.Document
import Proxyshop.Contracts.Price
import Proxyshop.Ecmascript.Text
import Proxyshop.Structures.Sorted

/-!
# The walk over a claim's value

One bounded search of a claim's opaque value, for provenance blocks and for statements of a discount
authorisation.
-/

namespace Proxyshop.Contracts

open Python Structures

/-- `_trimmed`. -/
def trimmed (text : Str) : Str := text.stripBy CodePoint.isBlank

def hookProvenanceSources : List Str :=
  [str "scraped", str "pixel_feed", str "owner_statement", str "envelope_rule",
    str "learned_policy", str "network"]

def sellerAsserted : Str := str "seller_asserted"

def nonHookProvenanceSources : List Str := [sellerAsserted]

def discountAuthorisationClaimKeys : List Str :=
  [str "authorized_discount_pct", maxDiscountRosterKey]

def claimValueMaxDepth : Nat := 64

def claimValueMaxEntries : Nat := 65536

variable {N : Type}

/-- `_declared_provenance_source`. -/
def declaredProvenanceSource (block : Json N) : Option Str :=
  match block with
  | .object _ =>
      match block.get (str "source") with
      | .string unwrapped =>
          let source := trimmed unwrapped
          if source ∈ hookProvenanceSources ∨ source ∈ nonHookProvenanceSources then some source
          else none
      | _ => none
  | _ => none

/-- `_container_length`. -/
def containerLength : Json N → Option Nat
  | .array items => some items.length
  | .object members => some members.length
  | _ => none

/-- `_container_entries`, with whether they are those of a mapping. -/
def containerEntries (node : Json N) : List (Str × Json N) × Bool :=
  let cap := claimValueMaxEntries + 1
  match node with
  | .object members => (byKey Str.le (members.take cap), true)
  | .array items => ((items.take cap).mapIdx fun index child => (Str.ofNat index, child), false)
  | _ => ([], false)

namespace ClaimValue

structure Node (N : Type) where
  value : Json N
  path : Str
  depth : Nat

structure Walk (N : Type) where
  stack : List (Node N)
  found : List (Str × Str)
  mentionsAuthorisation : Bool
  truncated : Bool
  budget : Nat

def Node.child (node : Node N) (isMapping : Bool) (entry : Str × Json N) : Node N where
  value := entry.2
  path :=
    if isMapping then node.path ++ str "." ++ entry.1 else node.path ++ str "[" ++ entry.1 ++ str "]"
  depth := node.depth + 1

def isAuthorisationKey (key : Str) : Bool := trimmed key ∈ discountAuthorisationClaimKeys

namespace Walk

def report (w : Walk N) (node : Node N) : Walk N :=
  match declaredProvenanceSource node.value with
  | some source => { w with found := w.found ++ [(node.path, source)] }
  | none => w

def visit (popped : Walk N) (node : Node N) : Walk N :=
  let w := popped.report node
  match containerLength node.value with
  | none => w
  | some length =>
      if length ≠ 0 ∧ (claimValueMaxDepth < node.depth ∨ w.budget < length) then
        { w with truncated := true }
      else
        let (items, isMapping) := containerEntries node.value
        if items.isEmpty then w
        else if claimValueMaxDepth < node.depth ∨ w.budget < items.length then
          { w with truncated := true }
        else
          { w with
            budget := w.budget - items.length
            mentionsAuthorisation :=
              w.mentionsAuthorisation || (isMapping && items.any fun e => isAuthorisationKey e.1)
            stack := items.map (node.child isMapping) ++ w.stack }

/-- The loop, for at most `n` nodes. -/
def run : Nat → Walk N → Walk N
  | 0, w => w
  | n+1, w =>
      match w.stack with
      | [] => w
      | node :: stack => run n (visit { w with stack := stack } node)

def opened : Nat → Walk N → List (Node N)
  | 0, _ => []
  | n+1, w =>
      match w.stack with
      | [] => []
      | node :: stack =>
          let popped := { w with stack := stack }
          let rest := opened n (visit popped node)
          if (visit popped node).budget < popped.budget then node :: rest else rest

end Walk

def root (value : Json N) (label : Str) : Node N := ⟨value, label ++ str ".value", 0⟩

def start (value : Json N) (label : Str) : Walk N :=
  ⟨[root value label], [], false, false, claimValueMaxEntries⟩

/-- Every visit spends a place on the stack or an entry of the budget. -/
def fuel : Nat := claimValueMaxEntries + 1

end ClaimValue

open ClaimValue in
/-- The blocks found, whether a discount authorisation is stated, and whether anything was skipped. -/
def walkClaimValue (value : Json N) (label : Str) : List (Str × Str) × Bool × Bool :=
  let w := (start value label).run fuel
  (w.found, w.mentionsAuthorisation, w.truncated)

end Proxyshop.Contracts
