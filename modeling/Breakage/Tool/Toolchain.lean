import Breakage.Run.Engine
import Breakage.Tool.DigestCommand
import Breakage.Tool.Git
import Breakage.Tool.PackageBuilder

/-!
The engine that works by the commands of a toolchain.
-/

namespace Breakage

namespace Toolchain

def collaborators (t : Toolchain) : Collaborators where
  versionControl := (GitRepository.mk t.packagePath).versionControl
  buildSystem := (PackageBuilder.withJobs t.buildTool t.jobs).buildSystem
  digester := (DigestCommand.mk t.digester t.timeLimit).digester

def engine (t : Toolchain) : Engine := ⟨t.packagePath, t.collaborators⟩

end Toolchain

end Breakage
