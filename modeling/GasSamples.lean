import GasSamples.Reactive.Run
import GasSamples.Reactive.HandleStore
import GasSamples.Reactive.Overwrite
import GasSamples.Reactive.SharedCell
import GasSamples.Model.Engine
import GasSamples.Model.AbilitySystem
import GasSamples.Program.BaseGameplayAbility
import GasSamples.Analysis.BaseGameplayAbility
import GasSamples.Analysis.EffectLifetime
import GasSamples.Analysis.EffectAccounting
import GasSamples.Model.Character
import GasSamples.Program.VaultOverAbility
import GasSamples.Program.JumpAbility
import GasSamples.Analysis.VaultOverAbility
import GasSamples.Analysis.VaultCollision
import GasSamples.Analysis.FailedCommit
import GasSamples.Program.TickWallRun
import GasSamples.Program.GASCharacter
import GasSamples.Program.WallRunAbility
import GasSamples.Model.WallRunSession
import GasSamples.Analysis.WallRunAbility
import GasSamples.Analysis.WallRunFrame
import GasSamples.Analysis.TaskReentrancy
import GasSamples.Analysis.SideEffects
import GasSamples.Program.CharacterMovement
import GasSamples.Analysis.ModeOwnership
import GasSamples.Analysis.AttributeBounds
import GasSamples.Analysis.Repossession
import GasSamples.Analysis.HoldToCrouch
import GasSamples.Model.SphereTrace
import GasSamples.Program.CommitCheck
import GasSamples.Analysis.CommitCheck
import GasSamples.Analysis.VaultSearch
import GasSamples.Analysis.VaultTargets
import GasSamples.Analysis.VaultRadius
import GasSamples.Analysis.VaultCorridor
import GasSamples.Analysis.WallRunGeometry
import GasSamples.Analysis.TemporaryModifiers
import GasSamples.Reactive.RunUntil
import GasSamples.Reactive.CappedWalk
import GasSamples.Analysis.TryTraversal
import GasSamples.Analysis.SharedComponent
import GasSamples.Analysis.StateTags
import GasSamples.Analysis.TraversalEffects
import GasSamples.Analysis.Equivariance
import GasSamples.Analysis.TraversalResidue
import GasSamples.Analysis.VaultReach
import GasSamples.Analysis.WallRunEndurance
import GasSamples.Analysis.WallRunHistory
import GasSamples.Analysis.CrouchState
import GasSamples.Analysis.HoldInputs
import GasSamples.Analysis.VaultLocality
import GasSamples.Analysis.MirrorImage
import GasSamples.Analysis.VaultInRuns
import GasSamples.Analysis.AttributeRuns
