import SealedGroups.Proofs.Alignment

/-!
# What goes wrong when actions are opened

Whatever is wrong with actions, the error says which part makes the state invalid, and nothing else:
a client learns that it cannot trust the change (`onlyInvalid_openActions`). Attributes are no
reason to refuse a change at all.
-/

namespace SealedGroups

/-- A computation that fails only as the state is invalid. -/
def OnlyInvalid {α : Type} (x : Except ClientError α) : Prop :=
  ∀ error, x = .error error → ∃ part flaw, error = .invalidState part flaw

namespace OnlyInvalid

variable {α β : Type} {x : Except ClientError α}

theorem ok (a : α) : OnlyInvalid (.ok a : Except ClientError α) := by
  intro error failed
  cases failed

theorem invalid (part : Part) (flaw : Flaw) :
    OnlyInvalid (.error (.invalidState part flaw) : Except ClientError α) := by
  intro error failed
  cases failed
  exact ⟨part, flaw, rfl⟩

theorem inPart (part : Part) (outcome : Except SealingError α) :
    OnlyInvalid (SealingError.inPart part outcome) := by
  cases outcome with
  | ok a => exact ok a
  | error e => exact invalid part (.sealing e)

theorem require (part : Part) (given : Option α) :
    OnlyInvalid (GroupClient.require part given) := by
  cases given with
  | some a => exact ok a
  | none => exact invalid part .missing

theorem bind {f : α → Except ClientError β} (first : OnlyInvalid x)
    (later : ∀ a, OnlyInvalid (f a)) : OnlyInvalid (x >>= f) := by
  intro error failed
  -- the failure is that of the first, or of what follows where it succeeds
  cases came : x with
  | ok a =>
    rw [came] at failed
    exact later a error failed
  | error e =>
    rw [came] at failed
    cases failed
    exact first error came

theorem mapM {f : α → Except ClientError β} (each : ∀ a, OnlyInvalid (f a)) (entries : List α) :
    OnlyInvalid (entries.mapM f) := by
  induction entries with
  | nil => exact ok []
  | cons a entries ih =>
    rw [List.mapM_cons]
    exact (each a).bind fun b => ih.bind fun rest => ok (b :: rest)

theorem mapM_option {γ : Type} {f : α → Noted ClientError β} {make : β → γ}
    (each : ∀ a, OnlyInvalid (f a).outcome) (given : Option α) :
    OnlyInvalid (given.mapM fun a => do return make (← f a)).outcome := by
  cases given with
  | none => exact ok none
  | some a =>
    rw [Option.mapM_some, Noted.outcome_map, Noted.outcome_bind, map_eq_pure_bind]
    exact ((each a).bind fun b => ok (make b)).bind fun c => ok (some c)

end OnlyInvalid

namespace GroupClient

variable {client : GroupClient}

/-! ### Identities and entries -/

theorem onlyInvalid_openIdentity (part : Part) (bytes : Bytes) :
    OnlyInvalid (client.openIdentity part bytes) := .inPart part _

theorem onlyInvalid_openAci (part : Part) (bytes : Bytes) :
    OnlyInvalid (client.openAci part bytes) := by
  refine (onlyInvalid_openIdentity part bytes).bind fun id => ?_
  cases id with
  | aci aci => exact .ok aci
  | pni pni => exact .invalid part .notAnAci

theorem onlyInvalid_openIdentityOrUnknown (bytes : Bytes) :
    OnlyInvalid (client.openIdentityOrUnknown bytes).outcome := by
  rw [openIdentityOrUnknown_outcome]
  split
  · exact .ok _
  · exact .invalid _ _

theorem onlyInvalid_openPresentation (bytes : Bytes) :
    OnlyInvalid (client.openPresentation bytes) := by
  refine (OnlyInvalid.inPart _ _).bind fun ⟨shown, id⟩ => ?_
  cases id with
  | aci aci => exact (OnlyInvalid.inPart _ _).bind fun profileKey => .ok _
  | pni pni => exact .invalid _ _

theorem onlyInvalid_openPerson (userId profileKey presentation : Bytes) :
    OnlyInvalid (client.openPerson userId profileKey presentation) := by
  rw [openPerson]
  -- without a presentation the two parts are opened by themselves
  split
  · refine (onlyInvalid_openAci _ _).bind fun aci => ?_
    exact (OnlyInvalid.inPart _ _).bind fun key => .ok _
  · exact onlyInvalid_openPresentation presentation

theorem onlyInvalid_openMember (revision : UInt32) (member : Sealed.Member) :
    OnlyInvalid (client.openMember revision member) :=
  (onlyInvalid_openPerson _ _ _).bind fun _ => .ok _

theorem onlyInvalid_openInvite (invite : Sealed.Invite) :
    OnlyInvalid (client.openInvite invite).outcome := by
  simp only [openInvite, Noted.outcome_bind]
  refine (onlyInvalid_openIdentityOrUnknown _).bind fun invitee => ?_
  exact (onlyInvalid_openIdentityOrUnknown _).bind fun inviter => .ok _

theorem onlyInvalid_openRequest (request : Sealed.JoinRequest) :
    OnlyInvalid (client.openRequest request) :=
  (onlyInvalid_openPerson _ _ _).bind fun _ => .ok _

theorem onlyInvalid_openBan (ban : Sealed.Ban) :
    OnlyInvalid (client.openBan ban).outcome := by
  rw [openBan, Noted.outcome_bind]
  exact (onlyInvalid_openIdentityOrUnknown _).bind fun id => .ok _

theorem onlyInvalid_openProfileKeyChange (entry : Sealed.Identity) :
    OnlyInvalid (client.openProfileKeyChange entry) :=
  (onlyInvalid_openPerson _ _ _).bind fun _ => .ok _

theorem onlyInvalid_openAcceptance (revision : UInt32) (entry : Sealed.Identity) :
    OnlyInvalid (client.openAcceptance revision entry) :=
  (onlyInvalid_openPerson _ _ _).bind fun _ => .ok _

theorem onlyInvalid_openPniAcceptance (revision : UInt32) (entry : Sealed.PniIdentity) :
    OnlyInvalid (client.openPniAcceptance revision entry) := by
  refine (onlyInvalid_openPerson _ _ _).bind fun person => ?_
  refine (onlyInvalid_openIdentity _ _).bind fun id => ?_
  cases id with
  | aci aci => exact .invalid _ _
  | pni pni => exact .ok _

/-! ### Attributes -/

theorem onlyInvalid_openAttribute (keys : Keyring) (name : String) (blob : Bytes) :
    OnlyInvalid (keys.openAttribute name blob).outcome := by
  rw [Keyring.openAttribute]
  split
  · exact .ok none
  · -- a blob that cannot be opened or read counts as unset, and is no failure
    split
    · exact .ok none
    · split <;> exact .ok _

theorem onlyInvalid_openAs {α : Type} (keys : Keyring) (name : String)
    (select : Attribute → Option α) (default : α) (blob : Bytes) :
    OnlyInvalid (keys.openAs name select default blob).outcome := by
  rw [Keyring.openAs, Noted.outcome_bind]
  refine (onlyInvalid_openAttribute keys name blob).bind fun content => ?_
  cases content with
  | none => exact .ok default
  | some content =>
    dsimp only
    split <;> exact .ok _

/-! ### Actions -/

/-- Whatever is wrong with actions of a known source, the error is that the state is invalid. -/
theorem onlyInvalid_openActions_some (actions : Sealed.Actions) (source : ServiceId) :
    OnlyInvalid (client.openActions actions (some source)).outcome := by
  simp only [openActions, Noted.outcome_bind, Noted.outcome_mapM, Noted.outcome_lift,
    Noted.outcome_pure]
  -- slot after slot, in the order in which they are opened
  refine .bind (.ok source) fun editor => ?_
  refine .bind (.mapM (fun _ => .bind (.require _ _) fun _ => onlyInvalid_openMember _ _) _)
    fun newMembers => ?_
  refine .bind (.mapM (fun _ => .bind (onlyInvalid_openAci _ _) fun _ => .ok _) _)
    fun removedMembers => ?_
  refine .bind (.mapM (fun _ => .bind (onlyInvalid_openAci _ _) fun _ => .ok _) _)
    fun roleChanges => ?_
  refine .bind (.mapM onlyInvalid_openProfileKeyChange _) fun profileKeyChanges => ?_
  refine .bind (.mapM (fun _ => .bind (.require _ _) onlyInvalid_openInvite) _)
    fun newInvites => ?_
  refine .bind (.mapM (fun _ => .bind (onlyInvalid_openIdentityOrUnknown _) fun _ => .ok _) _)
    fun revokedInvites => ?_
  refine .bind (.mapM (onlyInvalid_openAcceptance _) _) fun acceptedInvites => ?_
  refine .bind (.mapM_option (fun _ => onlyInvalid_openAs _ _ _ _ _) _) fun title => ?_
  refine .bind (.mapM_option (fun _ => onlyInvalid_openAs _ _ _ _ _) _) fun timer => ?_
  refine .bind (.mapM (fun _ => .bind (.require _ _) fun _ => onlyInvalid_openRequest _) _)
    fun newRequests => ?_
  refine .bind (.mapM (fun _ => .bind (onlyInvalid_openAci _ _) fun _ => .ok _) _)
    fun refusedRequests => ?_
  refine .bind (.mapM (fun _ => .bind (onlyInvalid_openAci _ _) fun _ => .ok _) _)
    fun approvedRequests => ?_
  refine .bind (.mapM_option (fun _ => onlyInvalid_openAs _ _ _ _ _) _) fun description => ?_
  refine .bind (.mapM (fun _ => .bind (.require _ _) onlyInvalid_openBan) _) fun newBans => ?_
  refine .bind (.mapM (fun _ => .bind (onlyInvalid_openIdentityOrUnknown _) fun _ => .ok _) _)
    fun liftedBans => ?_
  exact .bind (.mapM (onlyInvalid_openPniAcceptance _) _) fun acceptedPniInvites => .ok _

/-- Without another source, actions are opened by whoever they say is theirs. -/
theorem outcome_openActions_none (client : GroupClient) (actions : Sealed.Actions) :
    (client.openActions actions none).outcome =
      client.openIdentity .editor actions.source >>= fun id =>
        (client.openActions actions (some id)).outcome := by
  rw [openActions, Noted.outcome_bind, Noted.outcome_lift]
  rfl

/-- Whatever is wrong with actions, the error is that the state is invalid. -/
theorem onlyInvalid_openActions (actions : Sealed.Actions) (source : Option ServiceId) :
    OnlyInvalid (client.openActions actions source).outcome := by
  cases source with
  | some id => exact onlyInvalid_openActions_some actions id
  | none =>
    rw [outcome_openActions_none]
    exact (onlyInvalid_openIdentity .editor _).bind (onlyInvalid_openActions_some actions)

end GroupClient

end SealedGroups
