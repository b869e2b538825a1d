import AdequateApi.TransitionRuns
import AdequateApi.ChannelQueue
import AdequateApi.DbConnection
import AdequateApi.DbConnectionSpec
import AdequateApi.DbTransaction
import AdequateApi.PoolBreaker
import AdequateApi.BreakerHistory
import AdequateApi.PoolModel
import AdequateApi.PoolStep
import AdequateApi.PoolOwnership
import AdequateApi.PoolCapacity
import AdequateApi.PoolWakeup
import AdequateApi.PoolProbe
import AdequateApi.PoolTrip
import AdequateApi.PoolHandout
import AdequateApi.PoolReuse
import AdequateApi.PoolShutdown
import AdequateApi.PreparedRetry
import AdequateApi.TransactionAtomicity
import AdequateApi.RegexPattern
import AdequateApi.MultipartForm
import AdequateApi.HttpMessages
import AdequateApi.RouterModel
import AdequateApi.RouteCompilation
import AdequateApi.RouterMiddleware
import AdequateApi.FileTree
import AdequateApi.FileSystemService
import AdequateApi.SqlBuilder
import AdequateApi.UsersRepository
import AdequateApi.UsersService
import AdequateApi.FileStoreSpec
import AdequateApi.FileStoreConfinement
import AdequateApi.UserPictureSpec
import AdequateApi.UserFailure
import AdequateApi.UserPictureRace
import AdequateApi.UsersController
import AdequateApi.UserPictureName
import AdequateApi.RouteMatching
import AdequateApi.AccountSerializers
import AdequateApi.JwtService
import AdequateApi.Offload
import AdequateApi.RouteReachability
import AdequateApi.OpenApiDocument
import AdequateApi.RouterAutoHead
import AdequateApi.UserPathId
import AdequateApi.DatetimeConverter
import AdequateApi.PostgresSelect
import AdequateApi.SqlBuilderSpec
import AdequateApi.AccountCreation
import AdequateApi.PasswordLogging
import AdequateApi.ServerErrors
import AdequateApi.UserFilters
import AdequateApi.UsersListing
import AdequateApi.UsersListingExact
import AdequateApi.PostgresArray
import AdequateApi.SqlPlaceholders
import AdequateApi.QueryParameters
import AdequateApi.DispositionParams
import AdequateApi.ContentTypeGate
import AdequateApi.RootConfinement
import AdequateApi.BodyValidation
import AdequateApi.CivilCalendar
import AdequateApi.TimestampText
import AdequateApi.SessionTimestamp
import AdequateApi.IsoTimestamp
import AdequateApi.EnvironmentSettings
import AdequateApi.IdListParsing
import AdequateApi.SqlIndependence
import AdequateApi.AtomicWrite
import AdequateApi.PreparedCache
import AdequateApi.StoredFileAddress
import AdequateApi.IdRegister
import AdequateApi.ActionEffects
import AdequateApi.AccountStatements
import AdequateApi.AccountCalls
import AdequateApi.LoginTokens
import AdequateApi.PasswordHistory
import AdequateApi.ApplicationDispatch
import AdequateApi.AccountAccess
import AdequateApi.ServerStep
import AdequateApi.AnswerKinds
import AdequateApi.HttpSession
import AdequateApi.PagedWalk
import AdequateApi.ListingPages
import AdequateApi.DocumentedRoutes
import AdequateApi.MutationEffects
import AdequateApi.AllowedMethods
import AdequateApi.RefusedRequests
import AdequateApi.StoredPictures
import AdequateApi.FormRoundTrip
import AdequateApi.AcknowledgedAccounts
