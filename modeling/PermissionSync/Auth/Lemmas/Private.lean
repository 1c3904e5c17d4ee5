import PermissionSync.Auth.Shared
import PermissionSync.Base.Trace

/-!
# Operations that concern one call

Polls, clock readings and metadata exchanges touch neither the cache nor a lock. The checks of a context, the metadata
exchange, the parsing of a key set and the verification of a token consist of such operations.
-/

namespace PermissionSync.Authenticator

open PermissionSync.Auth PermissionSync.Base PermissionSync.Core PermissionSync.Wire
open PermissionSync.Runtime (Duration JwtAlgorithm)

variable {K V α β : Type} {lib : Libraries K V} {config : Config} {token : String} {algorithm : JwtAlgorithm}
  {context : SynchronizationContext} {t : Trace V}

/-- The operations of a check of the context. -/
def Polls : Op V → Prop
  | .isCancelled _ | .now => True
  | _ => False

/-- The operations that no other call can notice. -/
def Private : Op V → Prop
  | .isCancelled _ | .now | .tick | .unixSeconds | .request _ _ | .frame _ => True
  | _ => False

theorem Polls.private {o : Op V} (h : Polls o) : Private o := by
  cases o <;> first | exact h | exact h.elim

/-- The operations of the calls that only read the cache. -/
def Reads : Op V → Prop
  | .readCache _ | .dropRead => True
  | o => Private o

theorem Private.reads {o : Op V} (h : Private o) : Reads o := by
  cases o <;> first | exact h | exact h.elim

theorem guarded_only {E : Op V → Prop} {o : Op V} {p : Io V α} (hp : Only E p) (ho : E o) : Only E (guarded o p) :=
  .bind (.attempt hp) fun _ => .bind (.ask ho) fun _ => .lift

/-! ## The context -/

theorem unavailable_polls : Only Polls (unavailable context : Io V Bool) := by
  refine .bind (.ask trivial) fun cancelled => ?_
  cases cancelled with
  | true => exact .pure
  | false => exact .bind (.ask trivial) fun _ => .pure

theorem checkContext_polls : Only Polls (checkContext context : Io V Unit) := by
  refine .bind unavailable_polls fun stopped => ?_
  cases stopped with
  | true => exact .fail
  | false => exact .pure

theorem checkContext_private : Only Private (checkContext context : Io V Unit) :=
  checkContext_polls.mono fun _ => Polls.private

theorem unavailable_private : Only Private (unavailable context : Io V Bool) :=
  unavailable_polls.mono fun _ => Polls.private

/-! ## The metadata exchange -/

theorem timeoutError_private {cause : DeadlineCause} : Only Private (timeoutError context cause : Io V α) := by
  refine .bind (.ask trivial) fun cancelled => ?_
  cases cancelled with
  | true => exact .fail
  | false => cases cause <;> exact .fail

theorem effectiveDeadline_private {d : Duration} :
    Only Private (effectiveDeadline context d : Io V EffectiveDeadline) := by
  refine .bind checkContext_private fun _ => .bind (.ask trivial) fun n => .ite ?_ ?_
  · exact .pure
  · exact .pure

theorem readFrames_private {deadline : EffectiveDeadline} (frames : List Frame) (document : List UInt8) :
    Only Private (readFrames context deadline frames document : Io V (List UInt8)) := by
  induction frames generalizing document with
  | nil =>
      refine .bind (.ask trivial) fun inTime => ?_
      cases inTime with
      | true => exact .bind checkContext_private fun _ => .pure
      | false => exact timeoutError_private
  | cons next frames ih =>
      refine .bind (.ask trivial) fun inTime => ?_
      cases inTime with
      | false => exact timeoutError_private
      | true =>
          refine .bind checkContext_private fun _ => ?_
          cases next with
          | failed => exact .fail
          | trailers => exact ih document
          | data data =>
              refine .ite ?_ ?_
              · exact .fail
              · exact ih _

theorem getDocument_private {uri : Uri} : Only Private (getDocument config context uri : Io V (List UInt8)) := by
  refine .bind checkContext_private fun _ => .bind effectiveDeadline_private fun deadline => ?_
  refine .bind (.ask trivial) fun response => ?_
  cases response with
  | none => exact timeoutError_private
  | some response =>
      refine .bind checkContext_private fun _ => .bind .lift fun accepted => ?_
      refine .ite ?_ ?_
      · exact .fail
      · exact readFrames_private _ _

theorem getJwks_private : Only Private (getJwks lib config context) := by
  rw [getJwks]
  split
  · exact getDocument_private
  · refine .bind getDocument_private fun _ => .bind checkContext_private fun _ => ?_
    exact .bind .lift fun _ => .bind .lift fun _ => .bind .lift fun _ => getDocument_private

/-! ## Key sets -/

theorem algorithmTurn_private {object : List (String × Json)} {jwk : K} (candidates : List (Candidate V))
    (algorithm : JwtAlgorithm) : Only Private (algorithmTurn lib context object jwk candidates algorithm) := by
  refine .bind checkContext_private fun _ => .ite ?_ ?_
  · exact .bind checkContext_private fun _ => .pure
  · split
    · exact .pure
    · refine .bind checkContext_private fun _ => .bind checkContext_private fun _ => ?_
      split
      · exact .pure
      · refine .bind checkContext_private fun _ => ?_
        split
        · exact .pure
        · exact .bind checkContext_private fun _ => .pure

theorem entryTurn_private {allowed : List JwtAlgorithm} (candidates : List (Candidate V)) (value : Json) :
    Only Private (entryTurn lib context allowed candidates value) := by
  refine .bind checkContext_private fun _ => ?_
  split
  · exact .pure
  · split
    · exact .pure
    · exact .fail
    · refine .bind checkContext_private fun _ => .ite ?_ ?_
      · exact .pure
      · split
        · exact .pure
        · refine .bind checkContext_private fun _ => ?_
          exact .bind (.foldlM algorithmTurn_private _ _) fun _ => .bind checkContext_private fun _ => .pure

theorem parseJwks_private {document : List UInt8} {allowed : List JwtAlgorithm} :
    Only Private (parseJwks lib document allowed context) := by
  refine .bind checkContext_private fun _ => .bind .lift fun _ => .bind checkContext_private fun _ => ?_
  exact .bind .lift fun _ => .bind .lift fun _ => .foldlM entryTurn_private _ _

/-! ## Verification -/

theorem validateClaims_private {payload : List UInt8} : Only Private (validateClaims lib config payload context) := by
  refine .bind checkContext_private fun _ => .bind .lift fun _ => .bind .lift fun _ => ?_
  refine .bind checkContext_private fun _ => .bind (.ask trivial) fun _ => .bind .lift fun _ => .bind .lift fun _ => ?_
  exact .bind checkContext_private fun _ => .bind .lift fun _ => .bind checkContext_private fun _ => .pure

theorem claimsVerification_private {payload : List UInt8} :
    Only Private (claimsVerification lib config token context payload) := by
  refine .bind (.attempt validateClaims_private) fun result => ?_
  split <;> exact .pure

theorem verifyCandidates_private (candidates : List (Candidate V)) (selectedAny prohibited : Bool) :
    Only Private (verifyCandidates lib config token algorithm context candidates selectedAny prohibited) := by
  induction candidates generalizing selectedAny prohibited with
  | nil => exact .pure
  | cons candidate candidates ih =>
      refine .bind unavailable_private fun stopped => ?_
      cases stopped with
      | true => exact .pure
      | false =>
          refine .bind unavailable_private fun stopped => ?_
          cases stopped with
          | true => exact .pure
          | false =>
              rw [if_neg Bool.false_ne_true]
              split
              · exact claimsVerification_private
              · exact ih _ _

theorem classifyGuarded_private {cache : Option (Snapshot V)} :
    Only Private (classifyGuarded config context cache) := by
  refine .bind checkContext_private fun _ => ?_
  cases cache with
  | none => exact .pure
  | some snapshot => exact .bind (.ask trivial) fun _ => .pure

theorem verifyGuarded_private {cache : Option (Snapshot V)} :
    Only Private (verifyGuarded lib config token algorithm context cache) := by
  refine .bind unavailable_private fun stopped => ?_
  cases stopped with
  | true => exact .pure
  | false =>
      cases cache with
      | none => exact .pure
      | some snapshot =>
          refine .bind (.ask trivial) fun n => .ite ?_ ?_
          · exact .pure
          · exact .bind (verifyCandidates_private _ _ _) fun _ => .pure

theorem newerGuarded_private {g : UInt64} {cache : Option (Snapshot V)} :
    Only Private (newerGuarded config context g cache) :=
  .bind checkContext_private fun _ => .bind (.ask trivial) fun _ => .pure

/-! ## Guarded reads -/

theorem read_reads {p : Option (Snapshot V) → Io V α} (hp : ∀ cache, Only Private (p cache)) {q : Io V α}
    (hq : Only Private q) : Only Reads (do
      match ← readCache context.deadline with
      | none => q
      | some cache => guarded .dropRead (p cache)) := by
  refine .bind (.ask trivial) fun answer => ?_
  cases answer with
  | none => exact hq.mono fun _ => Private.reads
  | some cache => exact guarded_only ((hp cache).mono fun _ => Private.reads) trivial

theorem checkContext_reads : Only Reads (checkContext context : Io V Unit) :=
  checkContext_private.mono fun _ => Private.reads

theorem classifyCache_reads : Only Reads (classifyCache config context : Io V _) :=
  .bind checkContext_reads fun _ => read_reads (fun _ => classifyGuarded_private) .fail

theorem newerGeneration_reads {g : UInt64} :
    Only Reads (newerGenerationIsCurrentlyFresh config context g : Io V Bool) :=
  .bind checkContext_reads fun _ => read_reads (fun _ => newerGuarded_private) .fail

theorem verifyCurrent_reads : Only Reads (verifyCurrent lib config token algorithm context) := by
  refine .bind (unavailable_private.mono fun _ => Private.reads) fun stopped => ?_
  cases stopped with
  | true => exact .pure
  | false => exact read_reads (fun _ => verifyGuarded_private) .pure

end PermissionSync.Authenticator
