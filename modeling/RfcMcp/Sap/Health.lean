import RfcMcp.Execution.SourceReader

namespace RfcMcp

open Framework SourceReader

structure HealthCheckResult where
  ok : Bool
  detail : String
  exc : Option PyExc := none

/-- `check_connectivity`; `ping` is what the connections' own `ping` comes to. -/
def checkConnectivity (T : PyText) (pool : ConnectionManager) (ping : Conn → Except PyExc Unit) :
    Act HealthCheckResult :=
  Action.tryExcept
    (do
      pool.acquire fun conn => Action.ofExcept (ping conn)
      pure { ok := true, detail := "Connected and ping succeeded." })
    fun exc =>
      if isSapError exc then
        pure { ok := false, detail := exc.typeName ++ ": " ++ exc.text T, exc := some exc }
      else Action.raise exc

end RfcMcp
