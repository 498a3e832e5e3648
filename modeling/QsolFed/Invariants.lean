/-!
# Constitutional admission

What a message may bring about. Every effect is admitted as data, put into quarantine or rejected
under one of the hard invariants.
-/
namespace QsolFed

/-- An effect that a message may ask for. -/
inductive FederationEffect where
  | offerInformation
  | advertiseCapability
  | offerEvidence
  | requestEvidence
  | offerHypothesis
  | challenge
  | respond
  | submitCouncilReport
  | submitMinorityReport
  | submitExperimentReceipt
  | submitCitation
  | submitPublication
  | importForeignState
  | mutateLocalGovernance
  | promoteLocalEvidence
  | createOrReweightLocalVote
  | installLocalCapability
  | rewriteLocalHistory
  | mutateLocalCitizenship
  | executeArbitraryLocalTool
  | claimLocalAuthority
  | writeSecretToSemanticState
  | disableConstitutionalInvariant
  | unknownAuthorityBearingEffect
  deriving DecidableEq, Repr

/-- What becomes of an effect. -/
inductive AdmissionDecision where
  | acceptAsData
  | quarantine (reason : String)
  | reject (invariantId : String)
  deriving DecidableEq, Repr

/-- The Prime Directive. -/
def admitEffect : FederationEffect → AdmissionDecision
  | .offerInformation | .advertiseCapability | .offerEvidence | .requestEvidence
  | .offerHypothesis | .challenge | .respond | .submitCouncilReport | .submitMinorityReport
  | .submitExperimentReceipt | .submitCitation | .submitPublication => .acceptAsData
  | .importForeignState => .quarantine "foreign_state_is_not_local_state"
  | .mutateLocalGovernance => .reject "remote_governance_mutation_forbidden"
  | .promoteLocalEvidence => .reject "remote_evidence_promotion_forbidden"
  | .createOrReweightLocalVote => .reject "remote_vote_creation_forbidden"
  | .installLocalCapability => .reject "remote_capability_installation_forbidden"
  | .rewriteLocalHistory => .reject "remote_history_rewrite_forbidden"
  | .mutateLocalCitizenship => .reject "remote_citizenship_mutation_forbidden"
  | .executeArbitraryLocalTool => .reject "remote_arbitrary_execution_forbidden"
  | .claimLocalAuthority => .reject "remote_local_authority_claim_forbidden"
  | .writeSecretToSemanticState => .reject "secrets_in_semantic_state_forbidden"
  | .disableConstitutionalInvariant => .reject "runtime_constitution_override_forbidden"
  | .unknownAuthorityBearingEffect => .reject "unknown_authority_action_rejected"

end QsolFed
