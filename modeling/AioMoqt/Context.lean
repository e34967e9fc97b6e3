import AioMoqt.Buffer

/-!
# Draft profiles

The capability rows of `context.py`: one per supported draft, with the columns the
modelled codecs consult.
-/

namespace AioMoqt

open AioMoqt.Lib

/-- The supported drafts. -/
inductive Draft where
  | d14 | d16 | d18 | d20 | d22
deriving Repr, DecidableEq

def Draft.number : Draft → Nat
  | .d14 => 14
  | .d16 => 16
  | .d18 => 18
  | .d20 => 20
  | .d22 => 22

/-- Per-draft behaviour of the wire codec. -/
structure DraftProfile where
  draft : Draft
  /-- Integers are `vi64` instead of RFC 9000 ones. -/
  vi64 : Bool
  /-- Versions are negotiated in SETUP. -/
  setupCarriesVersions : Bool := false
  /-- Parameter types are coded as deltas. -/
  paramsDeltaCoded : Bool := true
  /-- Replies carry the Request ID. -/
  replyHasRequestId : Bool := false
  /-- Parameters whose value is one byte. -/
  uint8Params : List Nat := [0x10, 0x20, 0x22]
  /-- Parameters whose value is an inline Location. -/
  locationParams : List Nat := [0x09]
  /-- The Message Parameter registry: 18, 20 or 22. -/
  paramTable : Nat := 18
  /-- LOCATION_FILTER leads with its type instead of a Length. -/
  locationFilterTyped : Bool := false
  /-- PUBLISH_OK carries only EXPIRES. -/
  publishOkExpiresOnly : Bool := false
  /-- PUBLISH_DONE has SUBSCRIPTION_ENDED. -/
  publishDoneSubscriptionEnded : Bool := true
  /-- GOAWAY may end with a Request ID. -/
  goawayRequestId : Bool := true
  /-- The range of a FETCH is its LOCATION_FILTER, with an inclusive end. -/
  fetchLocationFilter : Bool := false
  /-- The End of Timed-Out Range marker exists. -/
  fetchTimedOutRange : Bool := false
  /-- A zero Payload Length in a FETCH object is followed by an Object Status. -/
  fetchObjectStatus : Bool := false
  /-- The flag bits a SUBGROUP_HEADER type carries over 0x10. -/
  subgroupTypeMask : Nat := 0x6F
  /-- A DELIVERY_TIMEOUT of 0 closes the session. -/
  zeroDeliveryTimeoutCloses : Bool := false
  /-- PUBLISH, SUBSCRIBE_OK and FETCH_OK end with Track Properties. -/
  trackProperties : Bool := true
  /-- Control runs over a pair of unidirectional streams. -/
  controlUniPair : Bool := true
  /-- A request stream that ends inside a message closes the session. -/
  truncatedRequestCloses : Bool := false

def profileFor : Draft → DraftProfile
  | .d14 =>
      { draft := .d14, vi64 := false, setupCarriesVersions := true, paramsDeltaCoded := false
        replyHasRequestId := true, uint8Params := [], locationParams := []
        trackProperties := false, fetchObjectStatus := true, subgroupTypeMask := 0x0F
        controlUniPair := false }
  | .d16 =>
      { draft := .d16, vi64 := false, replyHasRequestId := true, uint8Params := []
        locationParams := [], subgroupTypeMask := 0x2F, zeroDeliveryTimeoutCloses := true
        controlUniPair := false }
  | .d18 => { draft := .d18, vi64 := true }
  | .d20 =>
      { draft := .d20, vi64 := true, paramTable := 20, publishOkExpiresOnly := true
        publishDoneSubscriptionEnded := false, goawayRequestId := false
        fetchLocationFilter := true, fetchTimedOutRange := true, truncatedRequestCloses := true }
  | .d22 =>
      { draft := .d22, vi64 := true, paramTable := 22, locationFilterTyped := true
        publishOkExpiresOnly := true, publishDoneSubscriptionEnded := false
        goawayRequestId := false, fetchLocationFilter := true, fetchTimedOutRange := true
        truncatedRequestCloses := true }

/-- `is_draft16_or_later`. -/
def DraftProfile.draft16 (prof : DraftProfile) : Bool := 16 ≤ prof.draft.number

/-- Parameter values have the encoding of their definition. -/
def DraftProfile.draft18 (prof : DraftProfile) : Bool := 18 ≤ prof.draft.number

/-- `prof.draft >= 18 and prof.param_table >= 20`. -/
def DraftProfile.draft20 (prof : DraftProfile) : Bool := prof.draft18 && 20 ≤ prof.paramTable

/-- The integer codec of a draft, as `push_vint` and `pull_vint` pick it. -/
def DraftProfile.vint (prof : DraftProfile) : PrefixCode :=
  if prof.vi64 then Buffer.vi64 else Buffer.rfc9000

theorem DraftProfile.vint_local (prof : DraftProfile) : prof.vint.Local := by
  unfold DraftProfile.vint
  split
  · exact PrefixCode.ofClasses_local _ _ _ _ _
  · exact PrefixCode.ofClasses_local _ _ _ _ _

theorem DraftProfile.vint_bound (prof : DraftProfile) : 2 ^ 62 ≤ prof.vint.bound := by
  unfold DraftProfile.vint
  split
  · decide
  · decide

theorem DraftProfile.vint_open (prof : DraftProfile) : prof.vint.Open := by
  unfold DraftProfile.vint
  split
  · exact PrefixCode.ofClasses_open _ _ _ _ _ (by decide +kernel)
  · exact PrefixCode.ofClasses_open _ _ _ _ _ (by decide +kernel)

end AioMoqt
