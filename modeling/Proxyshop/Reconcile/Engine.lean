import Proxyshop.Reconcile.Verdict
import Proxyshop.Structures.UnionFind
import Proxyshop.Structures.Filing

/-!
# Reconciliation

One pass reads a stream of checkout events, the next attributes them to stores and groups their keys,
the next decides which discount codes may link the groups, the last files the events and emits one
event for every order that has an offer. Path compression and the order of a set are left out: the
roots `find` returns do not depend on the first, nothing emitted depends on the second.
-/

namespace Proxyshop.Reconcile

open Python Structures

inductive ReconcileError
  | reconciliationInput
  | python (e : PyError)
  deriving DecidableEq

def collect {ε α β : Type} (f : α → Except ε (Option β)) : List α → Except ε (List β)
  | [] => .ok []
  | a :: l => do
      let b ← f a
      let rest ← collect f l
      return b.toList ++ rest

section Engine

variable [Unicode]

/-! ## Read -/

structure Read where
  kind : Kind
  event : Record
  named : kindOf event = some kind
  identified : identifiersOf kind event ≠ []

def Read.identifiers (r : Read) : List Str := identifiersOf r.kind r.event

def Read.codes (r : Read) : List Str := if r.kind.bearsCodes then discountCodesOf r.event else []

def Read.store (r : Read) : Option Str := storeOf r.event

def readEvent (event : Record) : Except ReconcileError (Option Read) :=
  match named : kindOf event with
  | none => .ok none
  | some kind =>
      if identified : identifiersOf kind event ≠ [] then .ok (some ⟨kind, event, named, identified⟩)
      else if kind = .orderPaid then .error .reconciliationInput
      else .ok none

/-! ## Attribute -/

/-- Each identifier of an event that votes, with the store the event names. -/
def Read.ballots (r : Read) : List (Str × Str) :=
  if r.kind.votes then r.store.toList.flatMap fun store => r.identifiers.map fun key => (key, store)
  else []

def keyStores (read : List Read) : Dict Str (List Str) := gather (read.flatMap Read.ballots)

def candidates (keyStores : Dict Str (List Str)) (r : Read) : List Str :=
  r.identifiers.foldl (fun found key => found ∪ (Dict.get? keyStores key).getD []) []

def attributedStore (keyStores : Dict Str (List Str)) (r : Read) : Option Str :=
  match r.store with
  | some store => some store
  | none =>
      match candidates keyStores r with
      | [store] => some store
      | _ => none

def unattributedScope : Str := []

/-- A read event under the scope its keys are composed with. -/
structure Relevant extends Read where
  scope : Str

def Relevant.keys (e : Relevant) : List Str := scopedKeys e.identifiers e.scope

theorem Relevant.keys_ne_nil (e : Relevant) : e.keys ≠ [] := by
  simpa [Relevant.keys, scopedKeys, Read.identifiers] using e.identified

def Relevant.key (e : Relevant) : Str := e.keys.head e.keys_ne_nil

def Relevant.codeKeys (e : Relevant) : List Str := scopedKeys (e.codes.map codeKey) e.scope

def attributed (read : List Read) : List Relevant :=
  let stores := keyStores read
  read.map fun r => ⟨r, (attributedStore stores r).getD unattributedScope⟩

/-! ## Group -/

section Groups

variable (relevant : List Relevant)

def identityGroups : Groups Str := relevant.foldl (fun groups e => groups.union e.keys) Groups.empty

def identityOf (e : Relevant) : Str := (identityGroups relevant).root e.key

/-- The identity groups with an event of the kind: `has_order`, `has_offer`. -/
def holding (kind : Kind) : List Str := (relevant.filter fun e => e.kind = kind).map (identityOf relevant)

def linkedRoots : Dict Str (List Str) :=
  gather (relevant.flatMap fun e => e.codeKeys.map fun code => (code, identityOf relevant e))

/-- The codes that name at most one order and at most one offer. -/
def surviving : Dict Str (List Str) :=
  (linkedRoots relevant).filter fun link =>
    (link.2.filter fun root => root ∈ holding relevant .orderPaid).length ≤ 1 ∧
      (link.2.filter fun root => root ∈ holding relevant .accepted).length ≤ 1

def components : Groups Str := Groups.empty.unionHubs (surviving relevant)

/-- `per_component`, for the groups with an event of the kind. -/
def perComponent (kind : Kind) : Dict Str (List Str) :=
  gather (((relevant.map (identityOf relevant)).filter fun root => root ∈ holding relevant kind).map
    fun root => ((components relevant).root root, root))

def oneOf (kind : Kind) (code : Str) : Bool :=
  ((Dict.get? (perComponent relevant kind) ((components relevant).root code)).getD []).length ≤ 1

/-- The identity groups with the links of sound components applied. -/
def mergedGroups : Groups Str :=
  (surviving relevant).foldl
    (fun groups link =>
      if oneOf relevant .orderPaid link.1 && oneOf relevant .accepted link.1
      then groups.union (link.1 :: link.2) else groups)
    (identityGroups relevant)

def groupOf (e : Relevant) : Str := (mergedGroups relevant).root e.key

/-! ## File -/

structure Filed where
  members : Dict Str (Dict Kind Record)
  orders : Dict Str Record
  pixels : Dict Str Record
  fulfilments : Dict Str Record
  groupPixels : Dict Str (List Str)
  groupOfOrder : Dict Str Str

def Filed.empty : Filed := ⟨[], [], [], [], [], []⟩

def Filed.add (filed : Filed) (e : Relevant) : Filed :=
  let identity := identityOf relevant e
  let root := groupOf relevant e
  let filed := { filed with
    members := Dict.adjust filed.members root [] fun bucket => Dict.setDefault bucket e.kind e.event }
  match e.kind with
  | .orderPaid => { filed with
      orders := Dict.setDefault filed.orders identity e.event
      groupOfOrder := Dict.setDefault filed.groupOfOrder identity root }
  | .orderFulfilled => { filed with
      fulfilments := Dict.setDefault filed.fulfilments identity e.event }
  | .checkoutPixel => { filed with
      pixels := Dict.setDefault filed.pixels identity e.event
      groupPixels := Dict.adjust filed.groupPixels root [] fun roots => roots ++ [identity] }
  | _ => filed

def file : Filed := relevant.foldl (Filed.add relevant) Filed.empty

end Groups

/-! ## Emit -/

/-- The pixel of the order itself, or one of its group that no other order has. -/
def pixelFor (filed : Filed) (identity group : Str) : Option Record :=
  (Dict.get? filed.pixels identity).or
    ((((Dict.get? filed.groupPixels group).getD []).find? fun candidate =>
      !Dict.contains filed.orders candidate).bind (Dict.get? filed.pixels))

/-- The webhook's own reference; without one, its first identifier as it was before escaping. -/
def orderRefOf (webhook : Record) : Str :=
  let ref := (webhook.get (str "order_ref")).or ((payload webhook).get (str "order_id"))
  if ref.isNone then keyComponentDecoded ((joinKeys webhook).headD []) else ref.toStr

def verdict (webhook accepted : Record) (pixel fulfilment : Option Record) :
    Except PyError ReconciledEvent := do
  let promise ← promised accepted
  reconciledEvent (orderRefOf webhook) ((storeOf webhook).or (storeOf accepted))
    (((payload webhook).get (str "checkout_token")).or ((payload accepted).get (str "checkout_token")))
    promise webhook pixel (webhook.get (str "ts")) ((payload accepted).get (str "bid_ref"))
    (clusterOf accepted) fulfilment

def emitOrder (filed : Filed) (order : Str × Record) :
    Except ReconcileError (Option ReconciledEvent) :=
  let (identity, webhook) := order
  let group := (Dict.get? filed.groupOfOrder identity).getD []
  match Dict.get? ((Dict.get? filed.members group).getD []) .accepted with
  | none => .ok none
  | some accepted =>
      ((verdict webhook accepted (pixelFor filed identity group)
        (Dict.get? filed.fulfilments identity)).map some).mapError .python

def emit (relevant : List Relevant) : Except ReconcileError (List ReconciledEvent) :=
  let filed := file relevant
  collect (emitOrder filed) filed.orders

def reconcile (events : List Record) : Except ReconcileError (List ReconciledEvent) := do
  let read ← collect readEvent events
  emit (attributed read)

end Engine

end Proxyshop.Reconcile
