import ObjectKernel.Error
import ObjectKernel.Report

/-!
# Report files

Reading a report that was written to a file.

## Contents

* `Report.load`.
-/

namespace ObjectKernel

/-- The report in a file. -/
def Report.load (fs : Files) (path : Bytes) : Except Err Report :=
  match fs.read path with
  | .error e => .error (.reportNotRead path e)
  | .ok content =>
    match Report.decode? content with
    | some r => .ok r
    | none => .error .reportMalformed

end ObjectKernel
