import Mute.Go
import Mute.Encoding.Base64
import Mute.Encoding.Utf8
import Mute.Encoding.Json
import Mute.Encoding.JsonRoundTrip
import Mute.Encoding.JsonNormalForm
import Mute.Cipher.Modes
import Mute.Cipher.Aes256
import Mute.Uid.KeyEntry
import Mute.Uid.KeyInit
import Mute.Uid.KeyInitSafety
import Mute.Uid.KeyInitRoundTrip
import Mute.Uid.KeyInitNormalForm
import Mute.Session.State
import Mute.Session.MemStore.Store
import Mute.Session.MemStore.Invariant
import Mute.Session.MemStore.KeyUse
import Mute.Session.MemStore.Abstract
import Mute.Session.MemStore.Refinement
import Mute.Ctrl.Completion
