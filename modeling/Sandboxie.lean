import Sandboxie.WString
import Sandboxie.PathTree
import Sandboxie.KeyDelete
import Sandboxie.KeyStore
import Sandboxie.Scramble
import Sandboxie.Snapshot
import Sandboxie.SnapshotFlags
import Sandboxie.Policy.Pattern
import Sandboxie.Policy.Image
import Sandboxie.Policy.MatchPath
import Sandboxie.Scm
import Sandboxie.Policy.AddPath
import Sandboxie.Policy.GetPaths
import Sandboxie.ScmBuffers
import Sandboxie.ScmInPlace
