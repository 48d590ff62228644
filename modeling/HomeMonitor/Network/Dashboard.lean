import HomeMonitor.Http.Page
import HomeMonitor.Network.Board

/-! The root page on the way from the sensors to the browser: the nodes report, the server
reads what they send, and the page is sent while they go on reporting. -/
namespace HomeMonitor.Network
open HomeMonitor.Arduino HomeMonitor.AsyncWebserver HomeMonitor.Http HomeMonitor.Machine
  HomeMonitor.Template HomeMonitor.Text

variable {F : Type*}

end HomeMonitor.Network
