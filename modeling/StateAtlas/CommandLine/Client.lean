import StateAtlas.Graph.Exploration
import StateAtlas.Session.Config
/-!
Requests to the backend over the network, as far as they go without an answer.
-/

namespace StateAtlas

namespace Endpoint

/-- A request in short. -/
def request (e : Endpoint) : String := "GET /" ++ e.name

/-- The failure of a request that could not be sent. -/
def unsent (e : Endpoint) : ExploreError := .network e.request

end Endpoint

/-- The address of a project as requests use it. -/
def baseAddress (url : String) : String := Config.withoutTrailingSlashes url

/-- A backend that no request can be sent to. -/
def Backend.unreachable {m : Type → Type} [Monad m] : Backend m where
  initial := pure (.error Endpoint.initial.unsent)
  status := pure (.error Endpoint.status.unsent)
  outgoing _ := pure (.error Endpoint.outgoing.unsent)
  reset _ _ := pure (.error Endpoint.reset.unsent)

end StateAtlas
