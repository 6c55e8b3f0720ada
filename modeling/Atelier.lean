import Atelier.FileSystem.Overview
import Atelier.Main
import Atelier.Proofs.Bundle.Confinement
import Atelier.Proofs.Bundle.Grammar
import Atelier.Proofs.Bundle.Interchange
import Atelier.Proofs.Bundle.Normal
import Atelier.Proofs.Bundle.Stopped
import Atelier.Proofs.Command.Rendering
import Atelier.Proofs.Drawing.Documented
import Atelier.Proofs.Drawing.Printing
import Atelier.Proofs.Expression.Failure
import Atelier.Proofs.Expression.Written
import Atelier.Proofs.Reference.Signature
import Atelier.Proofs.Session.Spelling
import Atelier.Session.Step
