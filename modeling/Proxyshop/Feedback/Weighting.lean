import Proxyshop.Python.Value

/-!
# What a buyer's report is worth
-/

namespace Proxyshop.Feedback

open Python

def baseFeedbackWeight : Float := 1.0

def returnContradictionFactor : Float := 0.25

def feedbackDimension : Str := str "feedback_match"

def feedbackPositiveType : Str := str "fulfilled"

def feedbackNegativeType : Str := str "mismatch_return"

def feedbackKind : Str := str "feedback"

def returnKind : Str := str "refund"

def answerFields : List Str := [str "matched_pitch", str "answer"]

structure RoutedOrder where
  storeId : Str
  returned : Bool

/-- A buyer's track record: a multiplier the gate has found to be in range. -/
structure TrackRecord where
  factor : Float
  valid : 0.0 < factor ∧ factor ≤ 1.0

structure Verdict where
  accepted : Bool
  weight : Float
  orderRef : Str
  storeId : Option Str
  positive : Bool
  returned : Bool
  reasons : List Str

structure FeedbackObservation where
  storeId : Option Str
  dim : Str
  type : Str
  observedAt : Value
  weight : Float

/-- The observation type, where the report states an answer, and the weight. -/
structure Fold where
  type : Option Str
  weight : Float

section Weighting

variable [Unicode]

def isPositive (response : Record) : Bool :=
  let word (v : Value) : Str := Unicode.lower (Str.strip v.toStr)
  match response.get (str "matched_pitch") with
  | .bool matched => matched
  | .none =>
      let answer := (Dict.get? response (str "answer")).getD (.str [])
      word answer ∈ ["matched", "yes", "true", "good", "great"].map str
  | matched => word matched ∈ ["true", "yes", "y", "1", "matched"].map str

def acceptFeedback (orderRef : Str) (response : Record) (routedOrders : Dict Str RoutedOrder)
    (buyerTrackRecord : Option TrackRecord) : Verdict :=
  let positive := isPositive response
  match Dict.get? routedOrders orderRef with
  | none => ⟨false, 0.0, orderRef, none, positive, false, [str "not_network_routed"]⟩
  | some record =>
      let contradicted := positive && record.returned
      let weight :=
        if contradicted then baseFeedbackWeight * returnContradictionFactor else baseFeedbackWeight
      let reasons := str "network_routed" :: if contradicted then [str "contradicted_by_return"] else []
      match buyerTrackRecord with
      | none => ⟨true, weight, orderRef, some record.storeId, positive, record.returned, reasons⟩
      | some track => ⟨true, weight * track.factor, orderRef, some record.storeId, positive,
          record.returned, reasons ++ [str "buyer_track_record"]⟩

def feedbackObservation (verdict : Verdict) (observedAt : Value) : Option FeedbackObservation :=
  if verdict.accepted then
    some ⟨verdict.storeId, feedbackDimension,
      if verdict.positive then feedbackPositiveType else feedbackNegativeType, observedAt, verdict.weight⟩
  else none

def statesAnAnswer (payload : Record) : Bool :=
  answerFields.any fun field => match payload.get field with
    | .bool _ => true
    | .none => false
    | value => !(Str.strip value.toStr).isEmpty

def payloadOf (event : Record) : Record := (event.get (str "payload")).mapping

/-- A field of the event itself, falling back to the payload's. -/
def columnOr (event payload : Record) (name : Str) : Value := (event.get name).or (payload.get name)

def storeIdOf (event : Record) : Value := columnOr event (payloadOf event) (str "store_id")

def orderRefOf (event : Record) : Value := columnOr event (payloadOf event) (str "order_ref")

def orderIdentity (event : Record) : Option (Str × Str) :=
  if (storeIdOf event).isNone ∨ (orderRefOf event).isNone then none
  else some ((storeIdOf event).toStr, (orderRefOf event).toStr)

/-- `str(event.get("kind") or "")`. -/
def kindOf (event : Record) : Str := ((event.get (str "kind")).or (.str [])).toStr

def foldFeedback (event : Record) (returned : Bool) : Option Fold :=
  if kindOf event ≠ feedbackKind then none
  else if (storeIdOf event).isNone then none
  else
    let payload := payloadOf event
    let key := (orderRefOf event).toStr
    let routed : Dict Str RoutedOrder := [(key, ⟨(storeIdOf event).toStr, returned⟩)]
    let verdict := acceptFeedback key payload routed none
    let observedAt := (payload.get (str "observed_at")).or (event.get (str "ts"))
    (feedbackObservation verdict observedAt).map fun observation =>
      ⟨if statesAnAnswer payload then some observation.type else none, observation.weight⟩

/-! ## What the return decides -/

@[simp] theorem foldFeedback_of_other {event : Record} (h : kindOf event ≠ feedbackKind)
    (returned : Bool) : foldFeedback event returned = none := by
  rw [foldFeedback, if_pos h]

theorem foldFeedback_of_feedback {event : Record} (kind : kindOf event = feedbackKind)
    (store : (storeIdOf event).isNone = false) (returned : Bool) : foldFeedback event returned =
      some ⟨if statesAnAnswer (payloadOf event) then
          some (if isPositive (payloadOf event) then feedbackPositiveType else feedbackNegativeType)
        else none,
        if isPositive (payloadOf event) && returned then baseFeedbackWeight * returnContradictionFactor
        else baseFeedbackWeight⟩ := by
  simp only [foldFeedback, kind, store, acceptFeedback, Dict.get?_cons_self, feedbackObservation]
  simp

end Weighting
end Proxyshop.Feedback
